import Vamp.CommandJson
import Vamp.RemoteMessage

/-!
# The handler of the WebSocket server

`WsMsgHandler::handle` of `app_ws_handler.rs` reads a request, dispatches its command and
answers. The id of the request is part of what is read; if anything of it cannot be read, the
answer goes to the empty id. So a request is answered under its own id if and only if its
command can be read, or its id is empty (`answered_under_its_id_iff`). The client's types
promise less than is expected here: a limit of two and a half tracks is one of its commands,
and is never answered (`orphaned_request`).

How a text is read as JSON is a parameter (`Parser`), and so is how an error of it is worded.
-/

namespace Vamp

namespace AppWsHandler

open Dispatch

variable {ρ : Type}

/-- `tungstenite::Message`. -/
inductive Message : Type where
  | text (text : String)
  /-- binary data, pings, ... -/
  | other

/-- `serde_json::from_str`. -/
structure Parser : Type where
  /-- the text as JSON -/
  parse : String → Option Json
  /-- why the text cannot be read as a message -/
  complaint : String → String

/-- A response, as it is sent. -/
def responseText (response : RemoteResponse Json) : String :=
  (DataTransportMessage.toJson (fun _ : Empty => .null) id (.response response)).write

/-- `error_message`. -/
def errorMessage (id error : String) : Message := .text (responseText ⟨id, .error error⟩)

/-- The message in a text. -/
def readText (numbers : Numbers ρ) (parser : Parser) (text : String) :
    Option (DataTransportMessage (Command ρ) String) := do
  let j ← parser.parse text
  DataTransportMessage.read (Command.fromJson numbers) Serde.string j

/-- `WsMsgHandler::handle`; there is no answer if a command panics. -/
def handle (env : Environment ρ) (numbers : Numbers ρ) (parser : Parser) (c : Circumstances)
    (core : Core ρ) : Message → Option Message × Core ρ
  | .other => (some (.text "\x7b\"error\":\"unsupported_message_type\"\x7d"), core)
  | .text text =>
    match readText numbers parser text with
    | none => (some (errorMessage "" (parser.complaint text ++ ": " ++ text)), core)
    | some (.response _) => (some (errorMessage "" "unexpected_response_message"), core)
    | some (.request ⟨id, cmd⟩) =>
      match dispatchWithCore env core ⟨cmd, c⟩ with
      | (.ok value, core) => (some (.text (responseText ⟨id, .ok value⟩)), core)
      | (.err message, core) => (some (errorMessage id message), core)
      | (.panic, core) => (none, core)

/-! ## Under which id a request is answered -/

/-- A request, with some command; its members may stand in any order. -/
def IsRequest (frame : Json) (id : String) (cmd : Json) : Prop :=
  ∃ members, frame = .obj members ∧
    members.Perm [("type", .str "request"), ("id", .str id), ("cmd", cmd)]

/-- A message is a response to an id. -/
def RespondsTo (id : String) (reply : Message) : Prop :=
  ∃ result, reply = .text (responseText ⟨id, result⟩)

/-- Different responses have different texts. -/
theorem responseText_injective {response response' : RemoteResponse Json}
    (h : responseText response = responseText response') : response = response' := by
  have hread : ∀ response : RemoteResponse Json, DataTransportMessage.read (fun _ => none) some
      (DataTransportMessage.toJson (fun _ : Empty => .null) id (.response response)) =
        some (.response response) := fun response =>
    DataTransportMessage.read_toJson nofun (fun _ => rfl) (.response response)
  have hjson := (hread response).symm.trans
    ((congrArg _ (Json.write_injective h)).trans (hread response'))
  cases hjson
  rfl

/-- A response is a response to its own id only. -/
theorem respondsTo_iff {id id' : String} {result : RemoteResult Json} :
    RespondsTo id (.text (responseText ⟨id', result⟩)) ↔ id = id' := by
  constructor
  · rintro ⟨result', h⟩
    have hresponse := responseText_injective (Message.text.inj h)
    exact (congrArg RemoteResponse.id hresponse).symm
  · rintro rfl
    exact ⟨result, rfl⟩

variable {env : Environment ρ} {numbers : Numbers ρ} {parser : Parser} {c : Circumstances}
  {core core' : Core ρ} {text id : String} {frame cmd : Json} {reply : Message}

/-- A request can be read if its command can be read. -/
theorem readText_eq (numbers : Numbers ρ) (hparse : parser.parse text = some frame)
    (hframe : IsRequest frame id cmd) : readText numbers parser text =
      (Command.fromJson numbers cmd).map fun cmd => .request ⟨id, cmd⟩ := by
  obtain ⟨members, rfl, hperm⟩ := hframe
  rw [readText, hparse, Option.bind_eq_bind, Option.bind_some,
    DataTransportMessage.read_perm hperm, DataTransportMessage.read_request]

/-- What can be read is answered under its own id, with a value or with an error. -/
theorem respondsTo_of_read {cmd : Command ρ}
    (hread : readText numbers parser text = some (.request ⟨id, cmd⟩))
    (hreply : handle env numbers parser c core (.text text) = (some reply, core')) :
    RespondsTo id reply := by
  rw [handle, hread] at hreply
  rcases hrun : dispatchWithCore env core ⟨cmd, c⟩ with ⟨value | message | _, core₁⟩
  · simp only [hrun, Prod.mk.injEq, Option.some.injEq] at hreply
    exact ⟨.ok value, hreply.1.symm⟩
  · simp only [hrun, Prod.mk.injEq, Option.some.injEq] at hreply
    exact ⟨.error message, hreply.1.symm⟩
  · -- no answer at all
    simp only [hrun, Prod.mk.injEq] at hreply
    cases hreply.1

/-- What cannot be read is answered under the empty id. -/
theorem respondsTo_of_not_read (hread : readText numbers parser text = none)
    (hreply : handle env numbers parser c core (.text text) = (some reply, core')) :
    RespondsTo id reply ↔ id = "" := by
  rw [handle, hread] at hreply
  simp only [Prod.mk.injEq, Option.some.injEq] at hreply
  rw [← hreply.1, errorMessage, respondsTo_iff]

/-- **Under its own id**: a request is answered so if and only if its command can be read, or
it does not make a difference. Requests that make the dispatcher panic are not answered at
all. -/
theorem answered_under_its_id_iff (hparse : parser.parse text = some frame)
    (hframe : IsRequest frame id cmd)
    (hreply : handle env numbers parser c core (.text text) = (some reply, core')) :
    RespondsTo id reply ↔ Command.fromJson numbers cmd ≠ none ∨ id = "" := by
  have hread := readText_eq numbers hparse hframe
  cases hcmd : Command.fromJson numbers cmd with
  | none =>
    rw [hcmd, Option.map_none] at hread
    rw [respondsTo_of_not_read hread hreply]
    simp
  | some cmd' =>
    rw [hcmd, Option.map_some] at hread
    exact iff_of_true (respondsTo_of_read hread hreply) (.inl nofun)

/-- A request of the client, as it is sent. -/
def requestOf (id : String) (cmd : Json) : Json :=
  .obj [("type", .str "request"), ("id", .str id), ("cmd", cmd)]

theorem isRequest_requestOf (id : String) (cmd : Json) : IsRequest (requestOf id cmd) id cmd :=
  ⟨_, rfl, .refl _⟩

/-- A parser that knows the text of one message. -/
def parserOf (frame : Json) : Parser where
  parse text := if text = frame.write then some frame else none
  complaint _ := "invalid type"

theorem parserOf_write (frame : Json) : (parserOf frame).parse frame.write = some frame :=
  if_pos rfl

/-- Numbers without fractions. -/
def plainNumbers : Numbers ℤ := ⟨fun n => n, fun _ => 0, fun n => n, fun _ => 0⟩

/-- `LogFromUi`, as the client sends it. -/
def hello : Json :=
  .obj [("kind", .str "LogFromUi"), ("payload", .obj [("message", .str "hello")])]

theorem answered_under_its_id_iff_hello :
    RespondsTo "0" (.text (responseText ⟨"0", .ok .null⟩)) ↔
      Command.fromJson plainNumbers hello ≠ none ∨ "0" = "" := by
  have hread : readText plainNumbers (parserOf (requestOf "0" hello))
      (requestOf "0" hello).write = some (.request ⟨"0", .logFromUi ⟨"hello"⟩⟩) :=
    readText_eq _ (parserOf_write _) (isRequest_requestOf _ _)
  have hreply : handle plainEnvironment plainNumbers (parserOf (requestOf "0" hello))
      (circumstancesAt 0) (.new Database.empty false) (.text (requestOf "0" hello).write) =
        (some (.text (responseText ⟨"0", .ok .null⟩)), .new Database.empty false) := by
    rw [handle, hread]
    rfl
  exact answered_under_its_id_iff (parserOf_write _) (isRequest_requestOf _ _) hreply

/-- `GetTracks`, with a limit of two and a half. -/
def halfTrack : Json :=
  .obj [("kind", .str "GetTracks"), ("payload", .obj [("cursor", .null), ("criteria", .null),
    ("limit", .float ⟨"2.5", by decide, by decide⟩)])]

/-- A request may be answered under the empty id, and its promise is never settled. -/
theorem orphaned_request : ¬ ∀ (parser : Parser) (text id : String) (frame cmd : Json)
    (reply : Message) (core' : Core ℤ), parser.parse text = some frame →
      IsRequest frame id cmd →
      handle plainEnvironment plainNumbers parser (circumstancesAt 0) (.new Database.empty false)
        (.text text) = (some reply, core') → RespondsTo id reply := by
  intro hall
  have hread : readText plainNumbers (parserOf (requestOf "0" halfTrack))
      (requestOf "0" halfTrack).write = none :=
    readText_eq _ (parserOf_write _) (isRequest_requestOf _ _)
  have hresponds := hall (parserOf (requestOf "0" halfTrack)) (requestOf "0" halfTrack).write "0"
    _ _ _ _ (parserOf_write _) (isRequest_requestOf _ _) (by rw [handle, hread])
  rw [errorMessage, respondsTo_iff] at hresponds
  exact absurd hresponds (by decide)

end AppWsHandler

end Vamp
