import EnipAdapter.Model.Client

/-!
# What the openers owe

A target that has answered a ForwardOpen with success holds a connection. Whoever opened it
owns that connection or takes it down: the class-1 opener hands it to the manager, the class-3
opener returns it, and each of the two closes what it does not keep.
-/

set_option autoImplicit false

namespace EnipAdapter.Interface

open EnipAdapter.Model

/-- `data` is a ForwardClose that names the connection of `open_`: same serial, vendor,
originator serial and path. -/
def ClosesFor (open_ : ForwardOpenRequest) (data : Bytes) : Prop :=
  ∃ close : ForwardCloseRequest, close.connectionSerial = open_.connectionSerial ∧
    close.vendorId = open_.vendorId ∧ close.originatorSerial = open_.originatorSerial ∧
    close.connectionPath = open_.connectionPath ∧ close.encode = .ok data

/-- The ForwardOpen of `spec` went out, and its Message Router reply matches the service and
has success status. -/
structure Class1Succeeded (spec : IoConnectionSpec) (env : OpenEnv)
    (open_ : ForwardOpenRequest) (cpf : Cpf) (reply : MessageReply) : Prop where
  built : buildClass1Open spec (env.randomConnectionId ||| 1) (env.randomSerial ||| 1)
    env.randomOriginator = .ok open_
  encoded : ∃ data, open_.encode = .ok data
  answered : env.answers 0 = .ok cpf
  matched : forwardOpenReply open_.service cpf = .ok reply
  success : reply.status.isOk = true

/-- The class-1 opener strands nothing: after a success reply it returns a handle whose
connection the manager has registered, or an error after a matching ForwardClose. -/
def Class1NotStranded (localPort : UInt16) (spec : IoConnectionSpec) (env : OpenEnv) : Prop :=
  ∀ open_ cpf reply, Class1Succeeded spec env open_ cpf reply →
    (∃ handle m conn, (forwardOpen localPort spec env).result = .ok handle ∧
      (forwardOpen localPort spec env).manager = some m ∧
      m.registry.conns.lookup handle.connectionId = some conn) ∨
    (∃ e data, (forwardOpen localPort spec env).result = .error e ∧ ClosesFor open_ data ∧
      (⟨forwardCloseService, connectionManagerPath, data⟩, []) ∈
        (forwardOpen localPort spec env).issued)

/-- The class-3 ForwardOpen went out, and its reply matches and has success status. -/
structure Class3Succeeded (route : Option RoutePath) (opts : ClientOptions) (env : Class3Env)
    (reply : MessageReply) : Prop where
  sent : ∃ data payload, (class3Open opts env).encode = .ok data ∧
    unconnectedPayload route ⟨(class3Open opts env).service, connectionManagerPath, data⟩ =
      .ok payload
  answered : ∃ frame, env.answers 0 = .ok frame ∧ parseExplicitReply frame = .ok reply
  matched : reply.expectService (class3Open opts env).service = .ok ()
  success : reply.status.isOk = true

/-- The class-3 opener strands nothing: after a success reply it returns the connection, or
an error after sending a matching ForwardClose the way it sent the open. -/
def Class3NotStranded (route : Option RoutePath) (opts : ClientOptions) (env : Class3Env) :
    Prop :=
  ∀ reply, Class3Succeeded route opts env reply →
    (∃ state, (openClass3 route opts env).result = .ok state) ∨
    (∃ e data payload, (openClass3 route opts env).result = .error e ∧
      ClosesFor (class3Open opts env) data ∧
      unconnectedPayload route ⟨forwardCloseService, connectionManagerPath, data⟩ =
        .ok payload ∧
      (.sendRRData, payload) ∈ (openClass3 route opts env).issued)

end EnipAdapter.Interface
