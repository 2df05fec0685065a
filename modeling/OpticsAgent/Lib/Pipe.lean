import Mathlib

/-!
A pipe between two ends. What is fed waits in a queue and is passed on in order;
an end that was shut takes nothing more, and what is passed on then is lost.
-/

namespace OpticsAgent.Lib

/-- `fed` is what came in and `out` what came out, both oldest first. -/
structure Pipe (α : Type*) where
  fed : List α
  queue : List α
  out : List α
  shut : Bool
  inOrder : out <+: fed
  lossless : shut = false → fed = out ++ queue

namespace Pipe

variable {α : Type*}

theorem inOrder_empty : ([] : List α) <+: [] := List.prefix_refl []

theorem lossless_empty : false = false → ([] : List α) = [] ++ [] := fun _ => rfl

def empty : Pipe α := ⟨[], [], [], false, inOrder_empty, lossless_empty⟩

instance : Inhabited (Pipe α) := ⟨empty⟩

theorem inOrder_feed (p : Pipe α) (xs : List α) : p.out <+: p.fed ++ xs :=
  p.inOrder.trans (List.prefix_append p.fed xs)

theorem lossless_feed (p : Pipe α) (xs : List α) (hopen : p.shut = false) :
    p.fed ++ xs = p.out ++ (p.queue ++ xs) := by
  rw [p.lossless hopen, List.append_assoc]

def feed (p : Pipe α) (xs : List α) : Pipe α :=
  ⟨p.fed ++ xs, p.queue ++ xs, p.out, p.shut, p.inOrder_feed xs, p.lossless_feed xs⟩

/-- What comes out when `n` are passed on. -/
def passed (p : Pipe α) (n : ℕ) : List α :=
  if p.shut then p.out else p.out ++ p.queue.take n

theorem inOrder_pass (p : Pipe α) (n : ℕ) : p.passed n <+: p.fed := by
  rw [passed]
  split_ifs with hshut
  · exact p.inOrder
  · rw [p.lossless (Bool.eq_false_iff.mpr hshut)]
    exact List.prefix_append_right_inj _ |>.mpr (List.take_prefix n p.queue)

theorem lossless_pass (p : Pipe α) (n : ℕ) (hopen : p.shut = false) :
    p.fed = p.passed n ++ p.queue.drop n := by
  rw [passed, if_neg (Bool.eq_false_iff.mp hopen), List.append_assoc, List.take_append_drop]
  exact p.lossless hopen

def pass (p : Pipe α) (n : ℕ) : Pipe α :=
  ⟨p.fed, p.queue.drop n, p.passed n, p.shut, p.inOrder_pass n, p.lossless_pass n⟩

theorem lossless_close (p : Pipe α) (hopen : true = false) : p.fed = p.out ++ p.queue := by
  cases hopen

def close (p : Pipe α) : Pipe α := ⟨p.fed, p.queue, p.out, true, p.inOrder, p.lossless_close⟩

@[simp] theorem fed_empty : (empty : Pipe α).fed = [] := rfl

@[simp] theorem out_empty : (empty : Pipe α).out = [] := rfl

@[simp] theorem fed_feed (p : Pipe α) (xs : List α) : (p.feed xs).fed = p.fed ++ xs := rfl

@[simp] theorem out_feed (p : Pipe α) (xs : List α) : (p.feed xs).out = p.out := rfl

@[simp] theorem shut_feed (p : Pipe α) (xs : List α) : (p.feed xs).shut = p.shut := rfl

@[simp] theorem fed_pass (p : Pipe α) (n : ℕ) : (p.pass n).fed = p.fed := rfl

@[simp] theorem shut_pass (p : Pipe α) (n : ℕ) : (p.pass n).shut = p.shut := rfl

@[simp] theorem fed_close (p : Pipe α) : p.close.fed = p.fed := rfl

@[simp] theorem out_close (p : Pipe α) : p.close.out = p.out := rfl

@[simp] theorem shut_close (p : Pipe α) : p.close.shut = true := rfl

theorem out_pass_of_shut {p : Pipe α} (hshut : p.shut = true) (n : ℕ) : (p.pass n).out = p.out :=
  if_pos hshut

/-- An open pipe with nothing waiting has passed everything on. -/
theorem out_eq_fed {p : Pipe α} (hopen : p.shut = false) (hempty : p.queue = []) :
    p.out = p.fed := by
  rw [p.lossless hopen, hempty, List.append_nil]

end Pipe

end OpticsAgent.Lib
