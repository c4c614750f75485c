import ThermalLabel.Schema.Issue
/-!
# Checked values

Checking a document either yields a value or a list of issues. Parts are checked independently:
the issues of all parts are collected, in order.
-/

namespace ThermalLabel.Schema

/-- A value, or the issues that stand against it. -/
inductive Checked (α : Type) where
  | ok (value : α)
  | bad (issues : List Issue)
deriving DecidableEq

namespace Checked

variable {α β : Type}

def fault (f : Fault) : Checked α := .bad [⟨[], f⟩]

def map (f : α → β) : Checked α → Checked β
  | ok a => ok (f a)
  | bad issues => bad issues

/-- A function and its argument checked side by side. -/
def seq : Checked (α → β) → (Unit → Checked α) → Checked β
  | ok f, x => (x ()).map f
  | bad issues, x =>
    match x () with
    | ok _ => bad issues
    | bad more => bad (issues ++ more)

instance : Applicative Checked where
  pure := ok
  map := map
  seq := seq

/-- A further check of a value that is right so far. -/
def andThen (x : Checked α) (f : α → Checked β) : Checked β :=
  match x with
  | ok a => f a
  | bad issues => bad issues

/-- Issues seen from one level further out. -/
def within (step : PathStep) : Checked α → Checked α
  | ok a => ok a
  | bad issues => bad (issues.map fun i => ⟨step :: i.path, i.fault⟩)

/-- Every item of a list checked at its index. -/
def eachFrom (check : Json → Checked α) (start : Nat) : List Json → Checked (List α)
  | [] => ok []
  | v :: rest =>
    List.cons <$> (check v).within (.index start) <*> eachFrom check (start + 1) rest

def isOk : Checked α → Bool
  | ok _ => true
  | bad _ => false

def toExcept : Checked α → Except (List Issue) α
  | ok a => .ok a
  | bad issues => .error issues

@[simp] theorem map_eq (f : α → β) (x : Checked α) : f <$> x = x.map f := rfl

@[simp] theorem seq_eq (f : Checked (α → β)) (x : Checked α) : f <*> x = seq f fun _ => x := rfl

@[simp] theorem map_ok (f : α → β) (a : α) : (ok a).map f = ok (f a) := rfl

@[simp] theorem map_bad (f : α → β) (issues : List Issue) :
    (bad issues : Checked α).map f = bad issues := rfl

@[simp] theorem seq_ok_ok (f : α → β) (a : α) :
    seq (ok f) (fun _ => ok a) = ok (f a) := rfl

@[simp] theorem within_ok (step : PathStep) (a : α) : (ok a).within step = ok a := rfl

end Checked
end ThermalLabel.Schema
