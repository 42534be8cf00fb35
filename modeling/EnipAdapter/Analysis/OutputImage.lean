import EnipAdapter.Analysis.PushWriteProof
import EnipAdapter.Interface.OutputContract

/-!
# The output image and the run state on the wire

Which connection a push session's frames come from, in which format, and what it holds: the
connection is the one its open armed, its format and run state never change, and it holds
nothing until a write is accepted. With the invariant of the write path this says exactly
which frames carry the session's image, and which show the configured run state.
-/

set_option autoImplicit false

namespace EnipAdapter.Analysis

open EnipAdapter.Foundation EnipAdapter.Model EnipAdapter.Interface

variable {s : PushSystem} {io : IoConfig}

/-! ## What stays as it was opened -/

/-- A session and its connection keep what the open gave them. -/
structure Wired (io : IoConfig) (s : PushSystem) : Prop where
  commands : ∀ c ∈ s.commands, Issued s.handle.connectionId c
  connection : ∀ (id : UInt32) (conn : IoConnection),
    s.manager.registry.conns.lookup id = some conn → id = s.handle.connectionId ∧
      conn.params.o2tFormat = o2tFormat io ∧ conn.run = true
  /-- Until a write is accepted, the producer holds nothing. -/
  blank : (∀ k : ℕ, ¬Accepted s k) → ∀ (id : UInt32) (conn : IoConnection),
    s.manager.registry.conns.lookup id = some conn → conn.output = []
  layout : ∀ layout ∈ s.session.outLayout, layout.dataSize = o2tSize io
  image : s.session.outBuf.length = o2tSize io
  /-- The image a call offers has the configured size as well. -/
  offered : ∀ w : PendingWrite, s.state = .handoff w ∨ s.state = .awaiting w →
    w.bytes.length = o2tSize io

/-- It holds once a session is open. -/
theorem wired_of_opened (h : OpenedPush io s) : Wired io s := by
  rw [h.fresh]
  refine ⟨fun c hc => absurd hc List.not_mem_nil, fun id conn hconn => ?_, fun _ id conn hconn => ?_,
    fun layout hlayout => ?_, ?_, ?_⟩
  · obtain ⟨hid, hformat, -, hrun⟩ := h.connection id conn hconn
    exact ⟨hid, hformat, hrun⟩
  · exact (h.connection id conn hconn).2.2.1
  · refine outputLayout_dataSize ?_
    rw [h.layout]
    exact congrArg Except.ok hlayout
  · show s.session.outBuf.length = _
    rw [h.image, List.length_replicate]
  · rintro w (hw | hw) <;> cases hw

/-- The image a call offers has the size of the layout. -/
theorem candidate_length {session : EipPushSession} {field : IoFieldSpec} {value : Json}
    {image : Bytes} (h : session.candidate field value = .ok image) :
    ∃ layout ∈ session.outLayout, image.length = layout.dataSize := by
  unfold EipPushSession.candidate at h
  split at h
  · cases h
  · rename_i layout hlayout
    simp only at h
    split at h
    · cases h
    · split at h
      · cases h
      · split at h
        · cases h
        · rename_i out hencode
          cases h
          exact ⟨layout, hlayout, (AssemblyLayout.encodeInto_length hencode).1⟩

/-- The session's own turns keep it. -/
theorem Wired.beginCall (h : Wired io s) (field : IoFieldSpec) (value : Json) :
    Wired io (s.beginCall field value) := by
  unfold PushSystem.beginCall
  cases s.state with
  | handoff w => exact h
  | awaiting w => exact h
  | idle =>
    simp only
    cases hcandidate : s.session.candidate field value with
    | error e =>
      refine ⟨h.commands, h.connection, h.blank, h.layout, h.image, ?_⟩
      rintro w (hw | hw) <;> cases hw
    | ok image =>
      refine ⟨h.commands, h.connection, h.blank, h.layout, h.image, ?_⟩
      obtain ⟨layout, hlayout, hlength⟩ := candidate_length hcandidate
      rintro w (hw | hw) <;> cases hw
      exact hlength.trans (h.layout layout hlayout)

/-- A call that ends leaves nothing offered. -/
theorem Wired.finish (h : Wired io s) (call : ℕ) (result : Except DeviceError Unit) :
    Wired io (s.finish call result) := by
  refine ⟨h.commands, h.connection, h.blank, h.layout, h.image, ?_⟩
  rintro w (hw | hw) <;> cases hw

/-- Polling the session leaves the wiring as it is. -/
theorem Wired.pollSession (h : Wired io s) : Wired io s.pollSession := by
  unfold PushSystem.pollSession
  cases hstate : s.state with
  | idle => exact h
  | handoff w =>
    have hlength := h.offered w (.inl hstate)
    simp only
    split
    · exact h.finish _ _
    · split
      · refine ⟨h.commands, h.connection, h.blank, h.layout, h.image, ?_⟩
        rintro v (hv | hv) <;> cases hv
        exact hlength
      · split
        · exact h.finish _ _
        · exact h
  | awaiting w =>
    have hlength := h.offered w (.inr hstate)
    simp only
    split
    · refine ⟨h.commands, h.connection, h.blank, h.layout, hlength, ?_⟩
      rintro v (hv | hv) <;> cases hv
    · exact h.finish _ _
    · split
      · exact h.finish _ _
      · split
        · exact h.finish _ _
        · exact h

/-- What a turn of the translator leaves alone, and what it adds to the manager's queue. -/
theorem pollTranslator_frame (s : PushSystem) (poll : TranslatorPoll) :
    ∃ control translator acks added,
      s.pollTranslator poll = { s with
        control := control
        translator := translator
        acks := acks
        commands := s.commands ++ added } ∧
      ∀ c ∈ added, Issued s.handle.connectionId c := by
  have hnone : ∀ control translator acks, ∃ control' translator' acks' added,
      { s with control := control, translator := translator, acks := acks } =
        ({ s with
          control := control'
          translator := translator'
          acks := acks'
          commands := s.commands ++ added } : PushSystem) ∧
      ∀ c ∈ added, Issued s.handle.connectionId c := by
    intro control translator acks
    refine ⟨control, translator, acks, [], ?_, fun c hc => absurd hc List.not_mem_nil⟩
    rw [List.append_nil]
  unfold PushSystem.pollTranslator
  split
  · split
    · exact hnone s.control .closing s.acks
    · exact hnone s.control s.translator s.acks
  · split
    · exact hnone s.control s.translator s.acks
    · simp only
      split
      · exact hnone _ _ _
      · exact hnone _ _ s.acks
  · rename_i w drained _
    split
    · exact hnone s.control _ _
    · split
      · refine ⟨s.control, _, s.acks, _, rfl, fun c hc => ?_⟩
        rw [List.mem_singleton.mp hc]
        exact .staging w
      · split
        · exact hnone s.control _ _
        · exact hnone s.control s.translator s.acks
  · split
    · exact hnone s.control _ _
    · exact hnone s.control _ _
    · exact hnone s.control _ _
    · exact hnone s.control _ _
    · split
      · exact hnone s.control _ _
      · split
        · exact hnone s.control _ _
        · exact hnone s.control s.translator s.acks
  · split
    · exact hnone [] .ended s.acks
    · split
      · refine ⟨[], .ended, s.acks, _, rfl, fun c hc => ?_⟩
        rcases List.mem_pair.mp hc with rfl | rfl
        · exact .removal
        · exact .stop
      · exact hnone s.control s.translator s.acks
  · exact hnone s.control s.translator s.acks

/-- A turn of the translator keeps it. -/
theorem Wired.pollTranslator (h : Wired io s) (poll : TranslatorPoll) :
    Wired io (s.pollTranslator poll) := by
  obtain ⟨control, translator, acks, added, heq, hadded⟩ := pollTranslator_frame s poll
  rw [heq]
  refine ⟨fun c hc => ?_, h.connection, h.blank, h.layout, h.image, h.offered⟩
  rcases List.mem_append.mp hc with hc | hc
  · exact h.commands c hc
  · exact hadded c hc

/-- What a step of the manager does to a connection it keeps: the parameters and the run state
stay, and a new output comes with an acceptance. -/
def KeepsWiring (m : Manager) (r : Manager × List ManagerEffect) : Prop :=
  ∀ (id : UInt32) (c' : IoConnection), r.1.registry.conns.lookup id = some c' →
    ∃ c, m.registry.conns.lookup id = some c ∧ c'.params = c.params ∧ c'.run = c.run ∧
      (c'.output = c.output ∨ ∃ k : ℕ, (k, .ok ()) ∈ PushSystem.verdictsOf r.2)

/-- Producers that are kept are wired as before. -/
theorem keepsWiring_of_producers {m : Manager} {r : Manager × List ManagerEffect}
    (h : KeepsProducers m.registry.conns r.1.registry.conns) : KeepsWiring m r := by
  intro id c' hc'
  obtain ⟨c, hc, hsame⟩ := h id c' hc'
  exact ⟨c, hc, hsame.params, hsame.run, .inl hsame.output⟩

/-- A command of the session's own keeps the wiring. -/
theorem keepsWiring_command {m : Manager} {id : UInt32} {cmd : ManagerCommand} (env : CommandEnv)
    (h : Issued id cmd) : KeepsWiring m (m.step (.command cmd env)) := by
  unfold Manager.step
  split
  · cases h with
    | removal => exact keepsWiring_of_producers (KeepsProducers.erase _ _)
    | stop => exact keepsWiring_of_producers (KeepsProducers.empty _)
    | staging w =>
      simp only [Manager.command, Manager.stageOutput]
      cases hlookup : m.registry.conns.lookup id with
      | none => exact keepsWiring_of_producers (KeepsProducers.refl _)
      | some conn =>
        simp only
        split
        · exact keepsWiring_of_producers (KeepsProducers.refl _)
        · intro id' c' hc'
          by_cases hid : id' = id
          · subst hid
            simp only [AList.lookup_insert, Option.some.injEq] at hc'
            subst hc'
            refine ⟨conn, hlookup, rfl, rfl, .inr ⟨w.call, ?_⟩⟩
            simp [PushSystem.verdictsOf]
          · simp only [AList.lookup_insert_ne hid] at hc'
            exact ⟨c', hc', rfl, rfl, .inl rfl⟩
  · exact keepsWiring_of_producers (KeepsProducers.refl _)

/-- A session whose manager took such a step is wired as before. -/
theorem Wired.settle (h : Wired io s) {rest : List ManagerCommand}
    {r : Manager × List ManagerEffect} (hrest : rest ⊆ s.commands)
    (hkeeps : KeepsWiring s.manager r) : Wired io (s.settle rest r) := by
  refine ⟨fun c hc => ?_, fun id c' hc' => ?_, fun hnone id c' hc' => ?_, h.layout, h.image,
    h.offered⟩
  · simp only [PushSystem.settle] at hc
    split at hc
    · exact h.commands c (hrest hc)
    · cases hc
  · obtain ⟨c, hc, hparams, hrun, -⟩ := hkeeps id c' hc'
    obtain ⟨hid, hformat, hrun'⟩ := h.connection id c hc
    exact ⟨hid, hparams ▸ hformat, hrun.trans hrun'⟩
  · obtain ⟨c, hc, -, -, houtput⟩ := hkeeps id c' hc'
    rcases houtput with houtput | ⟨k, hk⟩
    · rw [houtput]
      exact h.blank (fun k hk => hnone k (List.mem_append_left _ hk)) id c hc
    · exact absurd (List.mem_append_right _ hk) (hnone k)

/-- A turn of the manager keeps it. -/
theorem Wired.pollManager (h : Wired io s) (poll : ManagerPoll) : Wired io (s.pollManager poll) := by
  unfold PushSystem.pollManager
  split
  · rename_i input hinput
    exact h.settle (List.Subset.refl _) (keepsWiring_of_producers
      (keepsProducers_step s.manager (PushSystem.managerInput_ne_command hinput)))
  · split
    · exact h
    · rename_i cmd rest hcommands
      have hissued := h.commands cmd (hcommands ▸ List.mem_cons_self)
      have hsettled := h.settle (hcommands ▸ List.subset_cons_self cmd rest)
        (keepsWiring_command ⟨s.now, .ok (), true⟩ hissued)
      exact ⟨hsettled.commands, hsettled.connection, hsettled.blank, hsettled.layout,
        hsettled.image, hsettled.offered⟩

/-- So does every input. -/
theorem Wired.step (h : Wired io s) (input : PushInput) : Wired io (s.step input) := by
  cases input with
  | advance elapsed => exact ⟨h.commands, h.connection, h.blank, h.layout, h.image, h.offered⟩
  | call field value => exact h.beginCall field value
  | session => exact h.pollSession
  | translator poll => exact h.pollTranslator poll
  | manager poll => exact h.pollManager poll

/-! ## A frame on the wire -/

/-- A frame of a step comes from the session's connection, in the configured format. -/
theorem Wired.frame (h : Wired io s) {input : PushInput} {datagram : Bytes}
    (hsent : datagram ∈ s.produced input) :
    ∃ (conn : IoConnection) (frame : IoFrame),
      s.manager.registry.conns.lookup s.handle.connectionId = some conn ∧
      receivedFrame (o2tFormat io) datagram = some frame ∧
      frame.data = (if (o2tFormat io).carriesData then conn.output else []) ∧
      frame.runMode = if (o2tFormat io).hasHeader then some true else none := by
  unfold PushSystem.produced at hsent
  split at hsent
  · split at hsent
    · rename_i input hinput
      obtain ⟨effect, heffect, hsend⟩ := List.mem_filterMap.mp hsent
      split at hsend
      · rename_i id endpoint bytes
        cases hsend
        obtain ⟨conn, hconn, c', hsame, hframe⟩ :=
          producedBy_of_send s.manager (PushSystem.managerInput_ne_command hinput) heffect
        obtain ⟨rfl, hformat, hrun⟩ := h.connection id conn hconn
        rw [hformat] at hframe
        refine ⟨conn, c'.currentFrame, hconn, hframe, ?_, ?_⟩
        · simp only [IoConnection.currentFrame, hsame.params, hsame.output, hformat]
        · simp only [IoConnection.currentFrame, hsame.params, hsame.run, hformat, hrun]
      · cases hsend
    · cases hsent
  · cases hsent

/-! ## The image -/

/-- The image is settled when a write was accepted, and the accepted one whose answer is still on
its way left the image as it was. -/
theorem imageSettled_iff :
    imageSettled s = true ↔ (∃ k : ℕ, Accepted s k) ∧
      ∀ w : PendingWrite, s.state = .awaiting w → s.verdicts.lookup w.call = some (.ok ()) →
        w.bytes = s.session.outBuf := by
  have hsome : s.verdicts.any (fun v => decide (v.2 = .ok ())) = true ↔ ∃ k, Accepted s k := by
    simp only [List.any_eq_true, decide_eq_true_eq, Accepted]
    constructor
    · rintro ⟨⟨k, verdict⟩, hmem, rfl⟩
      exact ⟨k, hmem⟩
    · rintro ⟨k, hk⟩
      exact ⟨(k, .ok ()), hk, rfl⟩
  rw [imageSettled, Bool.and_eq_true, hsome]
  refine and_congr_right fun _ => ?_
  cases s.state with
  | idle => simp
  | handoff w => simp
  | awaiting w =>
    simp only [Bool.or_eq_true, decide_eq_true_eq, SessionState.awaiting.injEq, forall_eq']
    exact imp_iff_not_or.symm

/-- In a state of the write path's invariant, the frames of a step carry the session's image
exactly when they are produced from a settled image in a format that carries data. -/
theorem framesCarryImage_iff (hinv : PushInv s) (hwired : Wired io s) (hsize : o2tSize io ≠ 0)
    (input : PushInput) : FramesCarryImage io s input ↔ FramesSettled io s input := by
  constructor
  · intro h hne
    obtain ⟨datagram, hsent⟩ := List.exists_mem_of_ne_nil _ hne
    obtain ⟨frame, hframe, hdata, hlength⟩ := h datagram hsent
    obtain ⟨conn, frame', hconn, hframe', hdata', -⟩ := hwired.frame hsent
    rw [hframe] at hframe'
    cases hframe'
    have hcarries : (o2tFormat io).carriesData = true := by
      by_contra hempty
      rw [if_neg hempty] at hdata'
      rw [hdata'] at hlength
      exact hsize hlength.symm
    rw [if_pos hcarries] at hdata'
    refine ⟨hcarries, imageSettled_iff.mpr ⟨?_, fun w hw hverdict => ?_⟩⟩
    · -- a producer without an accepted write holds nothing
      by_contra hnone
      have hblank := hwired.blank (not_exists.mp hnone) _ conn hconn
      rw [hdata', hblank] at hlength
      exact hsize hlength.symm
    · have haccepted : Accepted s w.call := mem_of_lookup hverdict
      rw [← (hinv.image conn hconn ⟨w.call, haccepted⟩).1 w hw haccepted, ← hdata', hdata]
  · intro h datagram hsent
    obtain ⟨hcarries, hsettled⟩ := h (List.ne_nil_of_mem hsent)
    obtain ⟨hsome, hcurrent⟩ := imageSettled_iff.mp hsettled
    obtain ⟨conn, frame, hconn, hframe, hdata, -⟩ := hwired.frame hsent
    obtain ⟨haccepted, hother⟩ := hinv.image conn hconn hsome
    have himage : conn.output = s.session.outBuf := by
      by_cases hwait : ∃ w : PendingWrite, s.state = .awaiting w ∧ Accepted s w.call
      · obtain ⟨w, hw, hk⟩ := hwait
        rw [haccepted w hw hk]
        exact hcurrent w hw (hinv.tickets.lookup_accepted hk)
      · exact hother fun w hw hk => hwait ⟨w, hw, hk⟩
    rw [if_pos hcarries, himage] at hdata
    exact ⟨frame, hframe, hdata, by rw [hdata, hwired.image]⟩

/-- For every accepted block with output fields, every accepted open and every schedule in which
the session never gives up late: all frames carry the session's image exactly when each is
produced from a settled image in a format that carries data. -/
theorem frames_carry_session_image_iff {deviceId : String} {io : IoConfig} {out : IoOutput}
    (hvalid : io.validate deviceId = .ok ()) (hout : io.output = some out)
    (hsignals : out.signals ≠ []) {conn : ConnectionConfig} {requestTimeout : Duration}
    {vendorId localPort : UInt16} {join : Except ErrorKind Unit} {env : OpenEnv} {s : PushSystem}
    (hopen : openPushSession conn io requestTimeout vendorId localPort join env = .ok s)
    {inputs : List PushInput} (hguard : Guarded PushSystem.step NoLateAcceptance s inputs) :
    Guarded PushSystem.step (FramesCarryImage io) s inputs ↔
      Guarded PushSystem.step (FramesSettled io) s inputs := by
  have hopened := openedPush_of_open hopen
  have hsize : o2tSize io ≠ 0 := by
    rw [o2tSize, hout]
    exact (acceptedIo_of_validate hvalid).outputSize out hout hsignals
  have hinv : PushInv s ∧ Wired io s := by
    refine ⟨?_, wired_of_opened hopened⟩
    rw [hopened.fresh]
    exact pushInv_start _ _ _ _
  refine guarded_congr (fun s => PushInv s ∧ Wired io s) (fun s i h hg => ?_) (fun s i h => ?_)
    hinv hguard
  · exact ⟨h.1.step hg, h.2.step i⟩
  · exact framesCarryImage_iff h.1 h.2 hsize i

/-- A write that is accepted before the first frame is due, and then that frame. -/
def writeThenFrame : List PushInput :=
  timelyWrite ++ [.advance (Duration.fromMillis 10), .manager (.tick [] fun _ => .ok ())]

/-- The first frame of a session, before any write. -/
def firstFrame : List PushInput :=
  [.advance (Duration.fromMillis 10), .manager (.tick [] fun _ => .ok ())]

/-- A frame after an accepted write carries its image. -/
theorem frames_carry_session_image_written :
    ∃ s, openSample sampleIo = .ok s ∧ (framesAlong s writeThenFrame).length = 1 ∧
      Guarded PushSystem.step (FramesCarryImage sampleIo) s writeThenFrame := by
  have hrun : (openSample sampleIo).toOption.any (fun s =>
      decide ((framesAlong s writeThenFrame).length = 1) &&
      decide (Guarded PushSystem.step NoLateAcceptance s writeThenFrame) &&
      decide (Guarded PushSystem.step (FramesSettled sampleIo) s writeThenFrame)) = true := by
    decide +kernel
  obtain ⟨s, hs, hp⟩ := exists_of_any hrun
  simp only [Bool.and_eq_true, decide_eq_true_eq] at hp
  obtain ⟨⟨hone, hguard⟩, hsettled⟩ := hp
  have hvalid : sampleIo.validate "press-2" = .ok () := by decide +kernel
  exact ⟨s, hs, hone,
    (frames_carry_session_image_iff hvalid rfl (by decide) hs hguard).mpr hsettled⟩

/-- The first frame of a session carries no data at all. -/
theorem first_frame_is_empty :
    sampleIo.validate "press-2" = .ok () ∧
      ∃ s, openSample sampleIo = .ok s ∧
        ¬Guarded PushSystem.step (FramesCarryImage sampleIo) s firstFrame := by
  refine ⟨by decide +kernel, ?_⟩
  have hrun : (openSample sampleIo).toOption.any (fun s =>
      ((s.step (.advance (Duration.fromMillis 10))).produced
        (.manager (.tick [] fun _ => .ok ()))).any fun datagram =>
          decide ((receivedFrame (o2tFormat sampleIo) datagram).map (·.data.length) = some 0)) =
        true := by
    decide +kernel
  obtain ⟨s, hs, hp⟩ := exists_of_any hrun
  obtain ⟨datagram, hsent, hempty⟩ := List.any_eq_true.mp hp
  refine ⟨s, hs, fun h => ?_⟩
  obtain ⟨frame, hframe, -, hlength⟩ := h.2.1 datagram hsent
  rw [hframe] at hempty
  simp only [Option.map_some, hlength] at hempty
  revert hempty
  decide

/-! ## The run state -/

/-- A frame of a schedule is produced by some step of a wired session. -/
theorem Wired.of_framesAlong (h : Wired io s) {inputs : List PushInput} {datagram : Bytes}
    (hsent : datagram ∈ framesAlong s inputs) :
    ∃ (s' : PushSystem) (input : PushInput), Wired io s' ∧ datagram ∈ s'.produced input := by
  induction inputs generalizing s with
  | nil => cases hsent
  | cons input inputs ih =>
    rcases List.mem_append.mp hsent with hnow | hlater
    · exact ⟨s, input, h, hnow⟩
    · exact ih (h.step input) hlater

/-- Every frame of a connection of a block says run, if its format has the header. -/
theorem PushLink.frames_run {link : PushLink} {conn : ConnectionConfig} {datagram : Bytes}
    (hheader : (o2tFormat io).hasHeader = true) (hsent : datagram ∈ link.frames conn io) :
    ∃ frame : IoFrame, receivedFrame (o2tFormat io) datagram = some frame ∧
      frame.runMode = some true := by
  unfold PushLink.frames at hsent
  split at hsent
  · rename_i s hopen
    have hwired := wired_of_opened (openedPush_of_open hopen)
    obtain ⟨s', input, hwired', hproduced⟩ := hwired.of_framesAlong hsent
    obtain ⟨_, frame, -, hframe, -, hrun⟩ := hwired'.frame hproduced
    rw [if_pos hheader] at hrun
    exact ⟨frame, hframe, hrun⟩
  · cases hsent

/-- The status view reports the configured run state. -/
theorem ioView_run {cfg : DeviceConfig} {out : IoOutput} (hio : cfg.io = some io)
    (hout : io.output = some out) (counters : IoCounters) :
    ({ DeviceMetrics.new cfg with io := counters }.ioView).get "run" = some (.bool out.run) := by
  simp [DeviceMetrics.ioView, DeviceMetrics.new, Json.get, hio, hout, List.lookup_cons]

/-- For every device whose output uses the 32-bit header, over any number of connections opened
for it and any schedule of each: a frame shows the configured run state exactly when that is
run. -/
theorem run_state_shown_iff {cfg : DeviceConfig} {io : IoConfig} {out : IoOutput}
    (hio : cfg.io = some io) (hout : io.output = some out)
    (hformat : out.realTimeFormat = .header32) (links : List PushLink) (counters : IoCounters) :
    ∀ datagram ∈ links.flatMap (·.frames cfg.connection io),
      ShowsRun cfg out counters datagram ↔ out.run = true := by
  intro datagram hsent
  obtain ⟨link, -, hlink⟩ := List.mem_flatMap.mp hsent
  have ho2t : o2tFormat io = out.realTimeFormat.toEnip := by simp [o2tFormat, hout]
  have hheader : (o2tFormat io).hasHeader = true := by
    rw [ho2t, hformat]
    rfl
  obtain ⟨frame, hframe, hrun⟩ := PushLink.frames_run hheader hlink
  rw [ho2t] at hframe
  constructor
  · rintro ⟨frame', hframe', hshown, -⟩
    rw [hframe] at hframe'
    cases hframe'
    rw [hrun] at hshown
    exact (Option.some.inj hshown).symm
  · intro hconfigured
    refine ⟨frame, hframe, ?_, ?_⟩
    · rw [hrun, hconfigured]
    · rw [ioView_run hio hout, hrun, hconfigured]
      rfl

/-- The output of the sample device, configured to run or to idle. -/
def sampleOutput (run : Bool) : IoOutput where
  sizeBytes := 4
  run := run
  signals := [setpointField]

/-- The sample block with that output. -/
def sampleBlock (run : Bool) : IoConfig := { sampleIo with output := some (sampleOutput run) }

/-- The sample device with that block. -/
def sampleDevice (run : Bool) : DeviceConfig where
  id := "press-2"
  mode := .push
  connection := sampleConnection
  pollGroups := []
  io := some (sampleBlock run)
  writes := ⟨[]⟩

/-- A connection that runs until its first frame. -/
def sampleLink : PushLink where
  requestTimeout := Duration.fromSecs 2
  vendorId := 0x1337
  localPort := 40000
  join := .ok ()
  env := sampleOpenEnv
  inputs := firstFrame

/-- Configured to run, the device sees run on both of two connections. -/
theorem run_state_shown_running :
    (sampleDevice true).validate = .ok (sampleDevice true) ∧
      ([sampleLink, sampleLink].flatMap (·.frames (sampleDevice true).connection
        (sampleBlock true))).length = 2 ∧
      ∀ datagram ∈ [sampleLink, sampleLink].flatMap (·.frames (sampleDevice true).connection
        (sampleBlock true)), ShowsRun (sampleDevice true) (sampleOutput true) {} datagram := by
  refine ⟨by decide +kernel, by decide +kernel, fun datagram hsent => ?_⟩
  have hio : (sampleDevice true).io = some (sampleBlock true) := rfl
  have hout : (sampleBlock true).output = some (sampleOutput true) := rfl
  exact (run_state_shown_iff hio hout rfl _ {} datagram hsent).mpr rfl

/-- Configured to idle, it is told to run all the same. -/
theorem idle_device_sees_run :
    (sampleDevice false).validate = .ok (sampleDevice false) ∧
      ∃ datagram ∈ sampleLink.frames (sampleDevice false).connection (sampleBlock false),
        ¬ShowsRun (sampleDevice false) (sampleOutput false) {} datagram := by
  refine ⟨by decide +kernel, ?_⟩
  have hrun : (sampleLink.frames (sampleDevice false).connection (sampleBlock false)).any
      (fun datagram =>
        decide ((receivedFrame .header32Bit datagram).bind (·.runMode) = some true)) = true := by
    decide +kernel
  obtain ⟨datagram, hsent, hshown⟩ := List.any_eq_true.mp hrun
  refine ⟨datagram, hsent, ?_⟩
  rintro ⟨frame, hframe, hidle, -⟩
  have hformat : (sampleOutput false).realTimeFormat.toEnip = .header32Bit := rfl
  rw [hformat] at hframe
  simp [hframe, hidle, sampleOutput] at hshown

end EnipAdapter.Analysis
