import Credentialsd.AddOnReplies
import Credentialsd.NativeHostReplies
import Credentialsd.PortalOperation

/-!
# The extension and its hosts (`webext`)

Any number of pages, each with the scripts of the add-on. For every request of a page that
reaches the background script the browser starts a process of the native messaging host, with
a connection to the bus of its own. The first message that the process writes is the reply.
-/

namespace Credentialsd

open Shim (Runtime PasskeyOperation PortalCall PyValue)

namespace AddOn

def Cmd.text : Cmd → String
  | .create => "create"
  | .get => "get"
  | .getClientCapabilities => "getClientCapabilities"

end AddOn

namespace Shim

/- `type(value).__name__` -/
def PyValue.typeName : PyValue → String
  | .none => "NoneType"
  | .bool _ => "bool"
  | .int _ => "int"
  | .bytes _ => "bytes"
  | .str _ => "str"
  | .list _ => "list"
  | .dict _ => "dict"

/- What `main` divides: the `timeout` of the options. -/
def nativeTimeout (entries : List (PyValue × PyValue)) : NativeHost.Timeout :=
  match entries.find? fun e => e.1.sameKey (.str "timeout") with
  | none => .missing
  | some e => if e.2.asInt.isSome then .number else .other e.2.typeName

def nativeOptions : PyValue → NativeHost.Options
  | .none => .none
  | .dict entries =>
    .dict (entries.any fun e => e.1.sameKey (.str "publicKey")) (nativeTimeout entries)
  | value => .other value.typeName

/- The dictionary that `main` writes. -/
def replyValue (reply : NativeHost.Reply PyValue) : PyValue :=
  .dict [(.str "requestId", reply.requestId),
    match reply.body with
    | .data value => (.str "data", value)
    | .error name message =>
      (.str "error", .dict [(.str "name", .str name), (.str "message", .str message)])]

namespace Runtime

variable (rt : Runtime)

/- `json.dumps(messageContent).encode("utf-8")` -/
def encode (reply : NativeHost.Reply PyValue) : Except NativeHost.Raised Bytes :=
  (rt.dumps (replyValue reply)).map Cbor.utf8

/-- What of a reply gets to the page. -/
def Arrives (reply : NativeHost.Reply PyValue) (response : AddOn.Response) : Prop :=
  reply.requestId = .int response.requestId ∧
    match reply.body with
    | .data value => response.reply = .data (rt.arrives value)
    | .error name message => response.reply = .error name message

/-- The browser reads in a reply what the host has written, if it can be read. -/
def Faithful : Prop :=
  ∀ reply content response, rt.encode reply = .ok content → rt.parse content = some response →
    rt.Arrives reply response

end Runtime

end Shim

/-! ### A host -/

/-- A process of the host for a task of the background script. `options` are those of the message,
`uniqueName` is the name of its connection. -/
structure Host where
  task : AddOn.Task
  origin : String
  topOrigin : String
  options : PyValue
  process : NativeHost.State PyValue
  uniqueName : Option String := none
  operation : Option PasskeyOperation := none

namespace Host

/- The message of `rcvFromContent`. -/
def message (task : AddOn.Task) (origin topOrigin : String) (options : PyValue) :
    NativeHost.ReceivedMessage PyValue where
  requestId := .int task.request.requestId
  cmd := some task.request.cmd.text
  options := Shim.nativeOptions options
  origin := some origin
  topOrigin := some topOrigin

/- `options = null` if the request has none. -/
def requestOptions (rt : Runtime) (request : AddOn.Request) : PyValue :=
  match request.options with
  | none => .none
  | some text => rt.options text

def launch (rt : Runtime) (origin topOrigin : String) (task : AddOn.Task) : Host where
  task := task
  origin := origin
  topOrigin := topOrigin
  options := requestOptions rt task.request
  process := NativeHost.init (message task origin topOrigin (requestOptions rt task.request))

inductive Label where
  | sigterm
  | cancelTask
  | timer
  | interface (r : Except NativeHost.Raised String)
  | begin (connected : Bool) (token : String)
  | capabilities (r : Except NativeHost.Raised PyValue)
  | hear (e : Shim.Event)
  | returned (r : Except NativeHost.Raised Unit)
  | complete
  | resume (r : Except NativeHost.Raised Unit)

section

variable (rt : Runtime)

/- A step of `main`. -/
def moves (h : Host) (e : NativeHost.Event PyValue) : Option Host :=
  (NativeHost.step rt.encode h.process e).map fun process => { h with process }

/-- `create_passkey` or `get_passkey` up to the call of the portal. Without `publicKey` in the
options `run` raises before that. -/
def beginOperation (h : Host) (connected : Bool) (token : String) : Option Host :=
  match PageOptions.publicKeyOptions h.options with
  | .error _ => h.moves rt (.credentialsd (.error (NativeHost.keyError "publicKey")))
  | .ok options =>
    match rt.dumps options with
    | .error e => h.moves rt (.credentialsd (.error e))
    | .ok reqJson =>
      match Shim.PortalRequest.create ⟨connected, h.uniqueName⟩ token with
      | .error text => h.moves rt (.credentialsd (.error ⟨true, "Exception", text⟩))
      | .ok request =>
        (Shim.portalCall h.task.request.cmd h.origin h.topOrigin reqJson token).map fun call =>
          { h with operation := some { call, request } }

/- `main` waits for the operation, which has not ended. -/
def waiting (h : Host) : Bool :=
  h.process.stage = .waiting && h.process.credentialsdTask.isNone

/- The handler receives a message, or is taken from the bus. -/
def hear (h : Host) (e : Shim.Event) : Option Host :=
  h.operation.map fun o => { h with operation := some { o with received := o.received ++ [e] } }

/- The call of the method returns, or raises. -/
def returnCall (h : Host) (r : Except NativeHost.Raised Unit) : Option Host :=
  h.operation.bind fun o =>
    match r with
    | .ok _ => some { h with operation := some { o with returned := true } }
    | .error e => h.moves rt (.credentialsd (.error e))

/- The future is done, and the operation goes on. -/
def completeOperation (h : Host) : Option Host :=
  h.operation.bind fun o =>
    match o.returned, o.future rt with
    | true, .done outcome => h.moves rt (.credentialsd (rt.result h.task.request.cmd outcome))
    | _, _ => none

def step (h : Host) : Label → Option Host
  | .sigterm => h.moves rt .sigterm
  | .cancelTask => h.moves rt .cancelTask
  | .timer => h.moves rt .timer
  | .interface r =>
    (h.moves rt (.interface (r.map fun _ => ()))).map fun h' => { h' with uniqueName := r.toOption }
  | .begin connected token =>
    if h.waiting && h.operation.isNone then h.beginOperation rt connected token else none
  | .capabilities r =>
    if h.task.request.cmd = .getClientCapabilities then h.moves rt (.credentialsd r) else none
  | .hear e => h.hear e
  | .returned r => h.returnCall rt r
  | .complete => h.completeOperation rt
  | .resume r => h.moves rt (.resume r)

end

/-! ### The reply -/

/-- The first message in the output: its length in the order of the machine, and its content. -/
def firstMessage (stdout : Bytes) : Option Bytes :=
  let content := (stdout.drop 4).take (Cbor.fromBigEndian (stdout.take 4).reverse)
  if 4 + Cbor.fromBigEndian (stdout.take 4).reverse ≤ stdout.length then some content else none

/-- What `sendNativeMessage` comes to. -/
def outcome (rt : Runtime) (h : Host) : Option (Option AddOn.Response) :=
  match firstMessage h.process.stdout with
  | some content => some (rt.parse content)
  | none => if h.process.ended then some none else none

end Host

/-! ### Pages -/

/-- A page with its scripts, the requests that it has posted, the hosts that the background script
waits for, and those it does not wait for any more. -/
structure PageScripts where
  addOn : AddOn.State := AddOn.init
  asked : List AddOn.Request := []
  hosts : List Host := []
  gone : List Host := []

namespace PageScripts

/- What a call of the page has posted, if the step was one that has got a number. -/
def posts (s t : AddOn.State) : List AddOn.Request :=
  if s.requestCounter < t.requestCounter then
    (t.messages.drop s.messages.length).filterMap AddOn.Message.request
  else []

def isNative : AddOn.Event → Bool
  | .native _ _ => true
  | _ => false

/-- A step of the scripts; a new call of `rcvFromContent` starts a host. -/
def move (rt : Runtime) (origin topOrigin : String) (page : PageScripts) (e : AddOn.Event) :
    Option PageScripts :=
  if isNative e then none
  else (AddOn.step page.addOn e).map fun addOn =>
    { page with
      addOn
      asked := page.asked ++ posts page.addOn addOn
      hosts := page.hosts ++
        (addOn.awaiting.drop page.addOn.awaiting.length).map (Host.launch rt origin topOrigin) }

/- What a task comes to with a reply, or when there will be none. -/
def outcomeOf : Option AddOn.Response → AddOn.Outcome
  | some response => .replied response.reply
  | none => .rejected

/-- The rest of `rcvFromContent`: the reply is posted as it is, under the number that it has. -/
def postReply (s : AddOn.State) (task : AddOn.Task) : Option AddOn.Response → AddOn.State
  | some response => s.postTo task.port (.portResponse task.port response)
  | none => s

/- The background script hears of the reply, `none` when there will be none. -/
def settle (page : PageScripts) (i : Nat) (h : Host) (reply : Option AddOn.Response) :
    Option PageScripts :=
  page.addOn.awaiting[i]?.map fun task =>
    { page with
      addOn := postReply { page.addOn with
        awaiting := page.addOn.awaiting.eraseIdx i
        finished := page.addOn.finished ++ [(task, outcomeOf reply)] } task reply
      hosts := page.hosts.eraseIdx i
      gone := page.gone ++ [h] }

end PageScripts

/-! ### All of it -/

/-- `names` are the names that the bus has given, and to which request's host. -/
structure Extension (P : Type) where
  pages : P → PageScripts := fun _ => {}
  names : List (String × P × Nat) := []

namespace Extension

variable {P : Type}

inductive Label (P : Type) where
  | page (p : P) (e : AddOn.Event) (topOrigin : String)
  | host (p : P) (i : Nat) (l : Host.Label)
  | settle (p : P) (i : Nat)
  | lose (p : P) (i : Nat)

def init : Extension P := {}

/- The name that the bus gives. -/
def givenName : Host.Label → Option String
  | .interface (.ok name) => some name
  | _ => none

section

variable [DecidableEq P] (rt : Runtime) (origin : P → String)

def setPage (s : Extension P) (p : P) (page : PageScripts) : Extension P :=
  { s with pages := Function.update s.pages p page }

/-- A step of a host. The bus gives no name twice. -/
def moveHost (s : Extension P) (p : P) (i : Nat) (l : Host.Label) : Option (Extension P) :=
  (s.pages p).hosts[i]?.bind fun h =>
    let given := (givenName l).toList
    if given.all fun name => !(s.names.map Prod.fst).contains name then
      (h.step rt l).map fun h' =>
        { s.setPage p { s.pages p with hosts := (s.pages p).hosts.set i h' } with
          names := s.names ++ given.map fun name => (name, p, h.task.request.requestId) }
    else none

def step (s : Extension P) : Label P → Option (Extension P)
  | .page p e topOrigin =>
    ((s.pages p).move rt (origin p) topOrigin e).map (s.setPage p)
  | .host p i l => s.moveHost rt p i l
  | .settle p i =>
    (s.pages p).hosts[i]?.bind fun h =>
      (h.outcome rt).bind fun reply => ((s.pages p).settle i h reply).map (s.setPage p)
  | .lose p i =>
    (s.pages p).hosts[i]?.bind fun h => ((s.pages p).settle i h none).map (s.setPage p)

end

end Extension

end Credentialsd
