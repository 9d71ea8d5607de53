import Vamp.Serde

/-!
# Remote messages

The messages of `defines.rs`, with commands `κ` and values `τ`, how they are written and how
they are read. A request with members that it does not have is refused; a response is not so
strict. What is written is read again (`read_toJson`).
-/

namespace Vamp

open Serde Serde.Fields

/-- `RemoteRequest`. -/
structure RemoteRequest (κ : Type) : Type where
  /-- chosen by the client -/
  id : String
  /-- what is to be done -/
  cmd : κ

/-- `RemoteResult`. -/
inductive RemoteResult (τ : Type) : Type where
  | ok (value : τ)
  | error (message : String)

/-- `RemoteResponse`. -/
structure RemoteResponse (τ : Type) : Type where
  /-- of the request -/
  id : String
  /-- what came of it -/
  result : RemoteResult τ

/-- `DataTransportMessage`. -/
inductive DataTransportMessage (κ τ : Type) : Type where
  | request (r : RemoteRequest κ)
  | response (r : RemoteResponse τ)

variable {κ τ : Type}

/-! ## Writing -/

/-- `RemoteResult` as JSON. -/
def RemoteResult.toJson (value : τ → Json) : RemoteResult τ → Json
  | ok a => .obj [("type", .str "ok"), ("value", value a)]
  | error message => .obj [("type", .str "error"), ("message", .str message)]

namespace DataTransportMessage

/-- `DataTransportMessage` as JSON. -/
def toJson (cmd : κ → Json) (value : τ → Json) : DataTransportMessage κ τ → Json
  | request r => .obj [("type", .str "request"), ("id", .str r.id), ("cmd", cmd r.cmd)]
  | response r => .obj [("type", .str "response"), ("id", .str r.id),
      ("result", r.result.toJson value)]

end DataTransportMessage

/-! ## Reading -/

/-- The fields of a `RemoteRequest`. -/
def RemoteRequest.fields (cmd : Reader κ) : Fields (RemoteRequest κ) :=
  RemoteRequest.mk <$> required "id" string <*> required "cmd" cmd

/-- `RemoteResult` from JSON. -/
def RemoteResult.read (value : Reader τ) : Reader (RemoteResult τ) := fun j => do
  let (tag, content) ← tagInside "type" j
  match ← identifier ["ok", "error"] tag with
  | "ok" => (RemoteResult.ok <$> required "value" value).read content
  | "error" => (RemoteResult.error <$> required "message" string).read content
  | _ => none

/-- The fields of a `RemoteResponse`. -/
def RemoteResponse.fields (value : Reader τ) : Fields (RemoteResponse τ) :=
  RemoteResponse.mk <$> required "id" string <*> required "result" (RemoteResult.read value)

namespace DataTransportMessage

/-- The content of a variant. -/
def readVariant (cmd : Reader κ) (value : Reader τ) (name : String) :
    Reader (DataTransportMessage κ τ) := fun content =>
  match name with
  | "request" => ((RemoteRequest.fields cmd).readStrict content).map request
  | "response" => ((RemoteResponse.fields value).read content).map response
  | _ => none

/-- `DataTransportMessage` from JSON. -/
def read (cmd : Reader κ) (value : Reader τ) : Reader (DataTransportMessage κ τ) := fun j => do
  let (tag, content) ← tagInside "type" j
  let name ← string tag
  readVariant cmd value name content

variable {cmd : Reader κ} {value : Reader τ}

/-- A request, and nothing else, in the order in which it is written. -/
theorem read_request (id : String) (c : Json) :
    read cmd value (.obj [("type", .str "request"), ("id", .str id), ("cmd", c)]) =
      (cmd c).map fun c => request ⟨id, c⟩ := by
  have hread : read cmd value (.obj [("type", .str "request"), ("id", .str id), ("cmd", c)]) =
      ((cmd c).bind fun c => some (RemoteRequest.mk id c)).map request := rfl
  rw [hread]
  cases cmd c <;> rfl

theorem readVariant_perm (cmd : Reader κ) (value : Reader τ)
    {members members' : List (String × Json)} (h : members.Perm members') (name : String) :
    readVariant cmd value name (.obj members) = readVariant cmd value name (.obj members') := by
  unfold readVariant
  split
  · rw [readStrict_perm _ h]
  · rw [Fields.read_perm _ h]
  · rfl

/-- The order of the members of a message does not matter. -/
theorem read_perm {members members' : List (String × Json)} (h : members.Perm members') :
    read cmd value (.obj members) = read cmd value (.obj members') := by
  have hvariant := readVariant_perm cmd value (h.filter fun m => m.1 ≠ "type")
  simp only [read, tagInside_obj, member_perm h]
  cases member "type" members' with
  | none => rfl
  | some tag =>
    cases tag with
    | none => rfl
    | some tag => simp only [Option.bind_eq_bind, Option.bind_some, hvariant]

/-- **What is written is read again.** -/
theorem read_toJson {cmdJson : κ → Json} {valueJson : τ → Json}
    (hcmd : ∀ c, cmd (cmdJson c) = some c) (hvalue : ∀ a, value (valueJson a) = some a)
    (m : DataTransportMessage κ τ) : read cmd value (m.toJson cmdJson valueJson) = some m := by
  cases m with
  | request r => rw [toJson, read_request, hcmd, Option.map_some]
  | response r =>
    obtain ⟨id, result⟩ := r
    cases result with
    | ok a =>
      have hread : read cmd value (toJson cmdJson valueJson (response ⟨id, .ok a⟩)) =
          (((value (valueJson a)).bind fun a => some (RemoteResult.ok a)).bind fun result =>
            some (RemoteResponse.mk id result)).map response := rfl
      rw [hread, hvalue]
      rfl
    | error message => rfl

end DataTransportMessage

end Vamp
