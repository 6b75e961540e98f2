import LoyaltyPoints.Database.Repository
import LoyaltyPoints.Database.Schema

/-! # Database: a server that follows a script

    The server knows no tables. It gives the next reply of a list to each statement, refuses what it
    is told to refuse, and writes down what it was sent. There is one connection at most; a lost one
    is made anew for the next call. The statements on the table of migrations are answered from a
    list of what has been applied. -/

namespace LoyaltyPoints.Database

/-- How a server refuses. -/
inductive Refusal where
  | error (code message : String)
  /-- It closes the connection. -/
  | close
deriving DecidableEq

/-- The error that a refusal is seen as. -/
def Refusal.cause : Refusal → DatabaseError
  | .error code message => .server code message
  | .close => .disconnected

/-- What a statement is answered with. -/
abbrev Response := Except Refusal Reply

/-- The statements that begin and end a transaction. -/
inductive Control where
  | begin
  | commit
  | rollback
deriving DecidableEq

/-- The text of a control statement. -/
def Control.text : Control → String
  | .begin => "BEGIN"
  | .commit => "COMMIT"
  | .rollback => "ROLLBACK"

/-- What the server was sent. -/
inductive Sent where
  | statement (s : Statement)
  | control (c : Control)
  /-- The script of a migration. -/
  | script (version : Int)
deriving DecidableEq

/-- What the table of migrations holds. -/
structure Applied where
  /-- The versions applied, and whether their scripts were those known here. -/
  versions : List (Int × Bool) := []
  dirty : Option Int := none
  /-- Every statement on the table fails with this. -/
  failure : Option Refusal := none

/-- The connection of a pool. -/
inductive Link where
  | none
  | open
deriving DecidableEq

/-- A server that follows a script, and the pool of its one connection. -/
structure Script where
  replies : List Response := []
  /-- How new connections are met: a refusal, or none. -/
  startups : List (Option Refusal) := []
  /-- The control statements that are refused, in order. -/
  refusals : List (Control × Refusal) := []
  applied : Applied := {}
  link : Link := .none
  poolClosed : Bool := false
  sent : List Sent := []
  /-- The number of fresh ids and times handed out. -/
  stamps : Nat := 0

namespace Script

/-- The codes of refusals that may pass while a connection is made. -/
def isPassing (code : String) : Bool := code == "53300" || code == "57P03"

/-- Makes a connection. A refusal that may pass is met by the next attempt. -/
def connectWith : List (Option Refusal) → Script → Except DatabaseError Unit × Script
  | [], s => (.ok (), { s with startups := [], link := .open })
  | .none :: rest, s => (.ok (), { s with startups := rest, link := .open })
  | some (.error code message) :: rest, s =>
    if isPassing code then connectWith rest s
    else (.error (.server code message), { s with startups := rest })
  | some .close :: rest, s => (.error .disconnected, { s with startups := rest })

/-- Has a connection, making one if there is none. -/
def acquire : Action Script Unit := .ofFun fun s =>
  if s.poolClosed then (.error (.error (.database .poolClosed)), s)
  else
    match s.link with
    | .open => (.ok (), s)
    | .none =>
      match connectWith s.startups s with
      | (.ok (), s) => (.ok (), s)
      | (.error e, s) => (.error (.error (.database e)), s)

/-- Writes down what was sent. -/
def note (x : Sent) (s : Script) : Script := { s with sent := s.sent ++ [x] }

/-- A refusal; a closed connection is lost. -/
def refuse {α : Type} (r : Refusal) (s : Script) : Except Fault α × Script :=
  (.error (.error (.database r.cause)),
    match r with
    | .close => { s with link := .none }
    | .error .. => s)

/-- Sends something that takes the next reply. At the end of the list replies are empty. -/
def send (x : Sent) : Action Script Reply := .ofFun fun s =>
  let s := s.note x
  match s.replies with
  | [] => (.ok {}, s)
  | .ok r :: rest => (.ok r, { s with replies := rest })
  | .error r :: rest => refuse r { s with replies := rest }

/-- Sends a control statement. -/
def control (c : Control) : Action Script Unit := .ofFun fun s =>
  let s := s.note (.control c)
  match s.refusals with
  | (d, r) :: rest => if d = c then refuse r { s with refusals := rest } else (.ok (), s)
  | [] => (.ok (), s)

/-- Rolls back what failed, if the connection is still there; if that fails too, the connection is
    given up. -/
def abandon : Action Script Unit := .ofFun fun s =>
  match s.link with
  | .none => (.ok (), s)
  | .open =>
    match (control .rollback).perform s with
    | (.ok (), s) => (.ok (), s)
    | (.error _, s) => (.ok (), { s with link := .none })

/-- Where the fresh ids and times begin: far from any that a script is likely to name. -/
def firstStamp : Nat := 0xd1b54a32d192ed03a0761d6478bd642f

/-- The first fresh time, in microseconds. -/
def firstMicros : Int := 4099680000123457

/-- A number that has not been handed out. -/
def freshNumber : Action Script Nat := .ofFun fun s =>
  (.ok s.stamps, { s with stamps := s.stamps + 1 })

/-- The server of a script. -/
def server : Server Script where
  execute x := do acquire; send (.statement x)
  begin := do acquire; control .begin
  commit := control .commit
  rollback := control .rollback
  abandon := abandon
  freshId := do return Uuid.ofNat (firstStamp + (← freshNumber))
  now := do return Instant.ofMicros (firstMicros + (← freshNumber))

/-- The ledger on the server of a script. -/
def store : Store Script := server.store

/-! ## The pool -/

/-- Asks whether the server is there. -/
def probe : Action Script Unit := do
  let _ ← server.execute .probe

/-- Makes the first connection and asks whether the server is there. -/
def connect : Action Script Unit := do
  acquire
  probe

/-- Closes the pool. -/
def close : Action Script Unit := .ofFun fun s =>
  (.ok (), { s with poolClosed := true, link := .none })

/-! ## Migrations -/

/-- Why the migrations applied do not agree with those known: one that is not known, or else one
    with another script. -/
def disagreement? (known : List Migration) (applied : List (Int × Bool)) : Option MigrationError :=
  match applied.find? fun a => known.all (·.version != a.1) with
  | some (v, _) => some (.missing v)
  | none =>
    (applied.find? fun a => !a.2).map fun a => .changed a.1

/-- A failure of the migrations. -/
def failMigration {α : Type} (e : MigrationError) : Action Script α :=
  .fail (.shared (.migration e))

/-- An action whose errors are failures of the migrations. -/
def asMigration {α : Type} (wrap : DatabaseError → MigrationError) (a : Action Script α) :
    Action Script α := do
  match ← a.attempt with
  | .ok x => pure x
  | .error (.database e) => failMigration (wrap e)
  | .error e => .fail e

/-- Applies a migration in a transaction of its own. -/
def apply (m : Migration) : Action Script Unit := do
  asMigration .statement (control .begin)
  let body : Action Script Unit := do
    let _ ← asMigration (.script m.version) (send (.script m.version))
    asMigration .statement (control .commit)
  match ← body.attempt with
  | .ok () => pure ()
  | .error e => do abandon; .fail e

/-- Applies the migrations that have not been applied. -/
def migrate (known : List Migration) : Action Script Unit := do
  asMigration .statement acquire
  let table : Applied ← Action.ofFun fun s => (.ok s.applied, s)
  match table.failure with
  | some r => asMigration .statement (Action.ofFun (refuse r))
  | none =>
    match table.dirty with
    | some v => failMigration (.dirty v)
    | none =>
      match disagreement? known table.versions with
      | some e => failMigration e
      | none =>
        (known.filter fun m => table.versions.all (·.1 != m.version)).forM apply

end Script

end LoyaltyPoints.Database
