import EnipAdapter.Foundation.Refuse
import EnipAdapter.Interface.TagGrammar

/-!
# The tag path parser and its grammar

The parser splits at dots, looks for a bracket, strips another and splits at commas, each step
blind to the others. It accepts a component exactly where the grammar has one, because no text
of the grammar contains a separator of an outer level; so the parts it finds are the parts that
were written.
-/

set_option autoImplicit false

namespace EnipAdapter.Analysis

open EnipAdapter.Foundation EnipAdapter.Model EnipAdapter.Interface
open EnipAdapter.Interface.TagComponent

/-! ## Indices -/

/-- An index is accepted as the number its digits say. -/
theorem parseIndex_ok_iff {text : List Char} {index : UInt32} :
    parseIndex text = .ok index ↔ IsIndex text ∧ index = UInt32.ofNat (digitsValue text) := by
  unfold parseIndex IsIndex
  by_cases hbad : text = [] ∨ text.all Char.isDigit = false
  · rw [if_pos hbad]
    constructor
    · intro h
      cases h
    · rintro ⟨⟨hne, hdigits, -⟩, -⟩
      cases hbad with
      | inl hnil => exact absurd hnil hne
      | inr hall =>
          rw [List.all_eq_true.mpr hdigits] at hall
          cases hall
  · rw [if_neg hbad]
    simp only [not_or, Bool.not_eq_false, List.all_eq_true] at hbad
    by_cases hvalue : digitsValue text < 2 ^ 32
    · rw [if_pos hvalue]
      constructor
      · intro h
        exact ⟨⟨hbad.1, hbad.2, hvalue⟩, (Except.ok.inj h).symm⟩
      · rintro ⟨-, rfl⟩
        rfl
    · rw [if_neg hvalue]
      constructor
      · intro h
        cases h
      · rintro ⟨⟨-, -, hlt⟩, -⟩
        exact absurd hlt hvalue

/-- Indices are accepted if each of them is. -/
theorem parseIndices_ok_iff {texts : List (List Char)} {segments : List Segment} :
    parseIndices texts = .ok segments ↔
      (∀ text ∈ texts, IsIndex text) ∧ segments = texts.map elementSegment := by
  induction texts generalizing segments with
  | nil =>
      constructor
      · intro h
        cases h
        exact ⟨fun text h => absurd h List.not_mem_nil, rfl⟩
      · rintro ⟨-, rfl⟩
        rfl
  | cons text texts ih =>
      rw [parseIndices, List.forall_mem_cons]
      constructor
      · intro h
        obtain ⟨index, hindex, h⟩ := bind_ok.mp h
        obtain ⟨rest, hrest, h⟩ := bind_ok.mp h
        cases h
        obtain ⟨hfirst, rfl⟩ := parseIndex_ok_iff.mp hindex
        obtain ⟨hothers, rfl⟩ := ih.mp hrest
        exact ⟨⟨hfirst, hothers⟩, rfl⟩
      · rintro ⟨⟨hfirst, hothers⟩, rfl⟩
        apply bind_ok.mpr
        refine ⟨_, parseIndex_ok_iff.mpr ⟨hfirst, rfl⟩, ?_⟩
        apply bind_ok.mpr
        exact ⟨_, ih.mpr ⟨hothers, rfl⟩, rfl⟩

/-! ## What a text of the grammar cannot contain -/

/-- An index has digits only. -/
theorem not_mem_of_isIndex {text : List Char} (h : IsIndex text) {c : Char}
    (hc : c.isDigit = false) : c ∉ text := by
  intro hmem
  rw [h.2.1 c hmem] at hc
  cases hc

/-- Every character of a name is one of the later ones. -/
theorem isName_chars {name : List Char} (h : IsName name) :
    ∀ c ∈ name, c.isAlphanum = true ∨ c = '_' ∨ c = ':' := by
  obtain ⟨hpos, -, hfirst, hrest⟩ := h
  cases name with
  | nil => exact absurd hpos (by decide)
  | cons first rest =>
      intro c hc
      cases List.mem_cons.mp hc with
      | inl heq =>
          rw [heq]
          cases hfirst first rfl with
          | inl halpha =>
              left
              rw [Char.isAlphanum, halpha, Bool.true_or]
          | inr hunder => exact .inr (.inl hunder)
      | inr hmem => exact hrest c hmem

/-- A name has letters, digits, underscores and colons only. -/
theorem not_mem_of_isName {name : List Char} (h : IsName name) {c : Char}
    (halnum : c.isAlphanum = false) (hunder : c ≠ '_') (hcolon : c ≠ ':') : c ∉ name := by
  intro hmem
  rcases isName_chars h c hmem with hc | hc | hc
  · rw [hc] at halnum
    cases halnum
  · exact hunder hc
  · exact hcolon hc

/-- The check of a name accepts exactly the names. -/
theorem validateName_ok_iff {name : List Char} : validateName name = .ok () ↔ IsName name := by
  cases name with
  | nil =>
      constructor
      · intro h
        cases h
      · intro h
        exact absurd h.1 (by decide)
  | cons first rest =>
      constructor
      · intro h
        simp only [validateName] at h
        split at h
        · cases h
        · rename_i hlen
          split at h
          · cases h
          · rename_i hfirst
            split at h
            · rename_i hall
              rw [Bool.not_eq_false, Bool.or_eq_true, beq_iff_eq] at hfirst
              refine ⟨Nat.le_add_left 1 _, Nat.le_of_not_lt hlen, ?_, ?_⟩
              · intro c hc
                cases hc
                exact hfirst
              · intro c hc
                have hchar := List.all_eq_true.mp hall c (List.mem_cons_of_mem first hc)
                simpa only [Bool.or_eq_true, beq_iff_eq, or_assoc] using hchar
            · cases h
      · intro h
        have hall : (first :: rest).all (fun c => c.isAlphanum || c == '_' || c == ':') = true := by
          apply List.all_eq_true.mpr
          intro c hc
          simpa only [Bool.or_eq_true, beq_iff_eq, or_assoc] using isName_chars h c hc
        have hfirst : ¬ (first.isAlpha || first == '_') = false := by
          rw [Bool.not_eq_false, Bool.or_eq_true, beq_iff_eq]
          exact h.2.2.1 first rfl
        rw [validateName, if_neg (Nat.not_lt.mpr h.2.1), if_neg hfirst, if_pos hall]

/-! ## Bracket groups -/

/-- A list of indices between brackets is not empty, and is split where it was put together. -/
theorem splitOn_indices {indices : List (List Char)} (hne : indices ≠ [])
    (h : ∀ index ∈ indices, IsIndex index) :
    [','].intercalate indices ≠ [] ∧ ([','].intercalate indices).splitOn ',' = indices := by
  have hsplit : ([','].intercalate indices).splitOn ',' = indices := by
    apply List.splitOn_intercalate ',' _ hne
    intro index hindex
    exact not_mem_of_isIndex (h index hindex) rfl
  refine ⟨?_, hsplit⟩
  intro hnil
  rw [hnil, List.splitOn_nil] at hsplit
  have hempty : IsIndex [] := h [] (by rw [← hsplit]; exact List.mem_singleton_self [])
  exact hempty.1 rfl

/-- A group is accepted exactly if it is indices in brackets, with commas between them. -/
theorem parseIndexGroup_ok_iff {group : List Char} {segments : List Segment} :
    parseIndexGroup group = .ok segments ↔
      ∃ indices, indices ≠ [] ∧ (∀ index ∈ indices, IsIndex index) ∧
        group = '[' :: ([','].intercalate indices ++ [']']) ∧
        segments = indices.map elementSegment := by
  constructor
  · intro h
    unfold parseIndexGroup at h
    split at h
    · rename_i rest
      split at h
      · cases h
      · rename_i hok
        simp only [not_or, ne_eq, not_not] at hok
        obtain ⟨hall, hsegments⟩ := parseIndices_ok_iff.mp h
        refine ⟨_, List.splitOn_ne_nil _ _, hall, ?_, hsegments⟩
        rw [List.intercalate_splitOn, List.dropLast_append_getLast? _ hok.1]
    · cases h
  · rintro ⟨indices, hne, hall, rfl, rfl⟩
    obtain ⟨hinner, hsplit⟩ := splitOn_indices hne hall
    have hgood : ¬ (([','].intercalate indices ++ [']']).getLast? ≠ some ']' ∨
        ([','].intercalate indices ++ [']']).dropLast = []) := by
      simp [hinner]
    rw [parseIndexGroup, if_neg hgood, List.dropLast_concat, hsplit]
    exact parseIndices_ok_iff.mpr ⟨hall, rfl⟩

/-! ## Components -/

/-- The letters stand at the code point of `A` or after it. -/
theorem le_toNat_of_isAlpha {c : Char} (h : c.isAlpha = true) : 65 ≤ c.toNat := by
  cases Bool.or_eq_true_iff.mp h with
  | inl hupper =>
      have hbounds := of_decide_eq_true hupper
      exact UInt32.le_iff_toNat_le.mp hbounds.1
  | inr hlower =>
      have hbounds := Bool.and_eq_true_iff.mp hlower
      have ha : 97 ≤ c.toNat := UInt32.le_iff_toNat_le.mp (of_decide_eq_true hbounds.1)
      omega

/-- The first character of a name is no digit. -/
theorem head_isDigit_of_isName {first : Char} {rest : List Char} (h : IsName (first :: rest)) :
    first.isDigit = false := by
  cases h.2.2.1 first rfl with
  | inl halpha =>
      by_contra hdigit
      have hle := (Char.isDigit_iff_toNat.mp (Bool.not_eq_false _ ▸ hdigit)).2
      have hnine : '9'.toNat = 57 := rfl
      have hletter := le_toNat_of_isAlpha halpha
      omega
  | inr hunder =>
      rw [hunder]
      rfl

/-- A name with something from a bracket on behind it is taken apart at the bracket. -/
theorem span_name {name : List Char} (h : IsName name) {group : List Char}
    (hgroup : ∀ c ∈ group.head?, c = '[') :
    (name ++ group).takeWhile (· != '[') = name ∧
      (name ++ group).dropWhile (· != '[') = group := by
  have hname : ∀ c ∈ name, (c != '[') = true := by
    intro c hc
    apply bne_iff_ne.mpr
    intro heq
    rw [heq] at hc
    exact not_mem_of_isName h rfl (by decide) (by decide) hc
  rw [List.takeWhile_append_of_pos hname, List.dropWhile_append_of_pos hname]
  cases group with
  | nil => exact ⟨List.append_nil name, rfl⟩
  | cons c rest =>
      rw [hgroup c rfl]
      exact ⟨List.append_nil name, rfl⟩

/-- A component that starts with a name is that symbol, then the indices of its group. -/
theorem parseComponent_name {name : List Char} (h : IsName name) {group : List Char}
    (hgroup : ∀ c ∈ group.head?, c = '[') :
    parseComponent (name ++ group) =
      if group = [] then .ok [.symbol (String.ofList name)]
      else parseIndexGroup group >>= fun indices =>
        .ok (.symbol (String.ofList name) :: indices) := by
  obtain ⟨htake, hdrop⟩ := span_name h hgroup
  have hvalid := validateName_ok_iff.mpr h
  cases name with
  | nil => exact absurd h.1 (by decide)
  | cons first rest =>
      have hdigit : ¬ first.isDigit = true := by
        rw [head_isDigit_of_isName h]
        exact Bool.false_ne_true
      rw [List.cons_append] at htake hdrop ⊢
      simp only [parseComponent, if_neg hdigit, htake, hdrop, hvalid, bind, Except.bind, pure,
        Except.pure]

/-- The text of a named component is its name, with nothing or a bracket group behind it. -/
theorem text_named (name : List Char) (indices : List (List Char)) :
    (named name indices).text =
      name ++ (if indices = [] then [] else '[' :: ([','].intercalate indices ++ [']'])) := by
  cases indices with
  | nil => exact (List.append_nil name).symm
  | cons index indices => rfl

/-- A component that the parser takes is one of the grammar's, with the segments it stands
for. -/
theorem parseComponent_sound {component : List Char} {segments : List Segment}
    (h : parseComponent component = .ok segments) :
    ∃ c : TagComponent, c.WellFormed ∧ component = c.text ∧ segments = c.segments := by
  cases component with
  | nil => cases h
  | cons first rest =>
      simp only [parseComponent] at h
      split at h
      · obtain ⟨index, hindex, h⟩ := bind_ok.mp h
        cases h
        obtain ⟨hdigits, rfl⟩ := parseIndex_ok_iff.mp hindex
        exact ⟨.number (first :: rest), hdigits, rfl, rfl⟩
      · obtain ⟨_, hname, h⟩ := bind_ok.mp h
        have hwhole := List.takeWhile_append_dropWhile (p := (· != '[')) (l := first :: rest)
        generalize (first :: rest).takeWhile (· != '[') = name at hname hwhole h
        generalize (first :: rest).dropWhile (· != '[') = group at hwhole h
        have hname := validateName_ok_iff.mp hname
        split at h
        · rename_i hnone
          cases h
          refine ⟨.named name [], ⟨hname, fun index h => absurd h List.not_mem_nil⟩, ?_, rfl⟩
          rw [← hwhole, hnone, List.append_nil]
          rfl
        · obtain ⟨indices, hindices, h⟩ := bind_ok.mp h
          cases h
          obtain ⟨texts, hne, hall, hgroup, rfl⟩ := parseIndexGroup_ok_iff.mp hindices
          refine ⟨.named name texts, ⟨hname, hall⟩, ?_, rfl⟩
          rw [text_named, if_neg hne, ← hgroup, hwhole]

/-- The parser takes every component of the grammar. -/
theorem parseComponent_text {c : TagComponent} (hc : c.WellFormed) :
    parseComponent c.text = .ok c.segments := by
  cases c with
  | number digits =>
      cases digits with
      | nil => exact absurd rfl hc.1
      | cons first rest =>
          have hfirst : first.isDigit = true := hc.2.1 first List.mem_cons_self
          show parseComponent (first :: rest) = _
          rw [parseComponent, if_pos hfirst]
          apply bind_ok.mpr
          exact ⟨_, parseIndex_ok_iff.mpr ⟨hc, rfl⟩, rfl⟩
  | named name indices =>
      obtain ⟨hname, hindices⟩ := hc
      rw [text_named]
      by_cases hnone : indices = []
      · rw [if_pos hnone, parseComponent_name hname (fun c hc => by cases hc), if_pos rfl, hnone]
        rfl
      · rw [if_neg hnone, parseComponent_name hname (fun c hc => by cases hc; rfl),
          if_neg (List.cons_ne_nil _ _)]
        apply bind_ok.mpr
        exact ⟨_, parseIndexGroup_ok_iff.mpr ⟨indices, hnone, hindices, rfl, rfl⟩, rfl⟩

/-- The parser takes a component exactly where the grammar has one, and gives its segments. -/
theorem parseComponent_ok_iff {component : List Char} {segments : List Segment} :
    parseComponent component = .ok segments ↔
      ∃ c : TagComponent, c.WellFormed ∧ component = c.text ∧ segments = c.segments := by
  constructor
  · exact parseComponent_sound
  · rintro ⟨c, hc, rfl, rfl⟩
    exact parseComponent_text hc

/-! ## Paths -/

/-- Components are accepted if each of them is well formed. -/
theorem parseComponents_ok_iff {texts : List (List Char)} {segments : List Segment} :
    parseComponents texts = .ok segments ↔
      ∃ cs : List TagComponent, (∀ c ∈ cs, c.WellFormed) ∧ texts = cs.map TagComponent.text ∧
        segments = cs.flatMap TagComponent.segments := by
  induction texts generalizing segments with
  | nil =>
      constructor
      · intro h
        cases h
        exact ⟨[], fun c hc => absurd hc List.not_mem_nil, rfl, rfl⟩
      · rintro ⟨cs, -, htexts, rfl⟩
        rw [List.map_eq_nil_iff.mp htexts.symm]
        rfl
  | cons text texts ih =>
      rw [parseComponents]
      constructor
      · intro h
        obtain ⟨head, hhead, h⟩ := bind_ok.mp h
        obtain ⟨rest, hrest, h⟩ := bind_ok.mp h
        cases h
        obtain ⟨c, hc, rfl, rfl⟩ := parseComponent_ok_iff.mp hhead
        obtain ⟨cs, hcs, rfl, rfl⟩ := ih.mp hrest
        exact ⟨c :: cs, List.forall_mem_cons.mpr ⟨hc, hcs⟩, rfl, rfl⟩
      · rintro ⟨cs, hcs, htexts, rfl⟩
        cases cs with
        | nil => cases htexts
        | cons c cs =>
            obtain ⟨rfl, rfl⟩ := List.cons.inj htexts
            obtain ⟨hc, hrest⟩ := List.forall_mem_cons.mp hcs
            apply bind_ok.mpr
            refine ⟨_, parseComponent_ok_iff.mpr ⟨c, hc, rfl, rfl⟩, ?_⟩
            apply bind_ok.mpr
            exact ⟨_, ih.mpr ⟨cs, hrest, rfl, rfl⟩, rfl⟩

/-- A member of some lists with separators between them is a separator or in one of them. -/
theorem mem_intercalate {sep x : Char} {xs : List (List Char)} (h : x ∈ [sep].intercalate xs) :
    x = sep ∨ ∃ l ∈ xs, x ∈ l := by
  induction xs with
  | nil => cases h
  | cons l xs ih =>
      cases xs with
      | nil =>
          rw [List.intercalate_singleton] at h
          exact .inr ⟨l, List.mem_singleton_self l, h⟩
      | cons l' xs =>
          rw [List.intercalate_cons_cons] at h
          simp only [List.mem_append, List.mem_singleton] at h
          rcases h with (hl | hsep) | hrest
          · exact .inr ⟨l, List.mem_cons_self, hl⟩
          · exact .inl hsep
          · cases ih hrest with
            | inl hsep => exact .inl hsep
            | inr hl =>
                obtain ⟨m, hm, hx⟩ := hl
                exact .inr ⟨m, List.mem_cons_of_mem l hm, hx⟩

/-- No component contains the dot that separates components. -/
theorem dot_not_mem_text {c : TagComponent} (h : c.WellFormed) : '.' ∉ c.text := by
  cases c with
  | number digits => exact not_mem_of_isIndex h rfl
  | named name indices =>
      rw [text_named]
      intro hmem
      cases List.mem_append.mp hmem with
      | inl hname => exact not_mem_of_isName h.1 rfl (by decide) (by decide) hname
      | inr hgroup =>
          split at hgroup
          · cases hgroup
          · simp only [List.mem_cons, List.mem_append, List.not_mem_nil, or_false] at hgroup
            rcases hgroup with hopen | hinner | hclose
            · cases hopen
            · cases mem_intercalate hinner with
              | inl hcomma => cases hcomma
              | inr hindex =>
                  obtain ⟨index, hmem, hdot⟩ := hindex
                  exact not_mem_of_isIndex (h.2 index hmem) rfl hdot
            · cases hclose

/-- The components of a path of the grammar are found where they were written. -/
theorem parseComponents_of_isTagPath {text : List Char} {cs : List TagComponent}
    (h : IsTagPath text cs) :
    parseComponents (text.splitOn '.') = .ok (cs.flatMap TagComponent.segments) := by
  obtain ⟨hne, hcs, rfl⟩ := h
  have hsplit : (['.'].intercalate (cs.map TagComponent.text)).splitOn '.' =
      cs.map TagComponent.text := by
    apply List.splitOn_intercalate
    · intro text hmem
      obtain ⟨c, hc, rfl⟩ := List.mem_map.mp hmem
      exact dot_not_mem_text (hcs c hc)
    · exact fun hnil => hne (List.map_eq_nil_iff.mp hnil)
  exact parseComponents_ok_iff.mpr ⟨cs, hcs, hsplit, rfl⟩

/-- The parser accepts a text exactly where it is a tag path of the grammar, and then gives the
segments of its components, in order. -/
theorem tag_path_parses_iff (s : String) (t : TagAddress) :
    TagAddress.parse s = .ok t ↔
      ∃ cs : List TagComponent, IsTagPath s.toList cs ∧
        t = ⟨⟨cs.flatMap TagComponent.segments⟩, s⟩ := by
  by_cases hs : s = ""
  · subst hs
    rw [TagAddress.parse, if_pos rfl]
    constructor
    · intro h
      cases h
    · rintro ⟨cs, hpath, -⟩
      cases parseComponents_of_isTagPath hpath
  · rw [TagAddress.parse, if_neg hs]
    constructor
    · intro h
      obtain ⟨segments, hsegments, h⟩ := bind_ok.mp h
      cases h
      obtain ⟨cs, hcs, htexts, rfl⟩ := parseComponents_ok_iff.mp hsegments
      refine ⟨cs, ⟨?_, hcs, ?_⟩, rfl⟩
      · rintro rfl
        exact List.splitOn_ne_nil _ _ htexts
      · rw [← htexts, List.intercalate_splitOn]
    · rintro ⟨cs, hpath, rfl⟩
      apply bind_ok.mpr
      exact ⟨_, parseComponents_of_isTagPath hpath, rfl⟩

end EnipAdapter.Analysis
