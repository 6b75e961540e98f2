import LoyaltyPoints.OrderNumber
import LoyaltyPoints.Store

/-! # Submitting an order

    A submission takes several steps, and other clients may act between them: the number is looked
    up, the order is stored, and if another client stored the number first, its order is read again
    to tell whose it is. Only the client whose order was stored hands it to the pipeline. A failure
    to hand it over does not take the submission back: the sweeper will find the order. -/

namespace LoyaltyPoints

namespace Submission

/-- Where a submission stands: what it does next. -/
inductive Phase where
  | lookUp
  | insert
  /-- Another client stored the number first. -/
  | reread
  /-- The order is stored and has to be handed to the pipeline. -/
  | register (o : Order)
  | done (result : Except Fault Order)

/-- The refusal that an order with the same number calls for. -/
def conflict (existing : Order) (user : String) : Error :=
  if existing.user == user then .alreadyAccepted existing.number
  else .alreadyRegistered existing.number

/-- Where a submission begins. -/
def start (number : String) : Phase :=
  if OrderNumber.isValid number then .lookUp
  else .done (.error (.error (.invalidOrderNumber number)))

variable {σ : Type}

/-- One step on the store. Handing over and being done are no such steps. -/
def step (store : Store σ) (user number : String) (phase : Phase) (s : σ) : Phase × σ :=
  match phase with
  | .lookUp =>
    match (store.orderByNumber number).perform s with
    | (.ok none, s) => (.insert, s)
    | (.ok (some o), s) => (.done (.error (.error (conflict o user))), s)
    | (.error e, s) => (.done (.error e), s)
  | .insert =>
    match (store.createOrder user number).perform s with
    | (.ok o, s) => (.register o, s)
    | (.error (.error (.duplicateOrderNumber _)), s) => (.reread, s)
    | (.error e, s) => (.done (.error e), s)
  | .reread =>
    match (store.orderByNumber number).perform s with
    | (.ok (some o), s) => (.done (.error (.error (conflict o user))), s)
    | (.ok none, s) => (.done (.error (.error (.duplicateOrderNumber number))), s)
    | (.error e, s) => (.done (.error e), s)
  | .register o => (.register o, s)
  | .done r => (.done r, s)

/-- All steps on the store, with nobody between them: the order to hand over, or the refusal. -/
def submit (store : Store σ) (user number : String) : Action σ Order := .ofFun fun s =>
  let go := fun (p : Phase × σ) => step store user number p.1 p.2
  match go (go (go (start number, s))) with
  | (.register o, s) => (.ok o, s)
  | (.done r, s) => (r, s)
  | (_, s) => (.error (.error (.duplicateOrderNumber number)), s)

/-- The order of a user with this number. -/
def find (store : Store σ) (user number : String) : Action σ Order := do
  match ← store.userOrder user number with
  | some o => pure o
  | none => .fail (.orderNotFound number)

end Submission

end LoyaltyPoints
