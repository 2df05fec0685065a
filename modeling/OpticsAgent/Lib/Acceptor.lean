import Mathlib

/-!
Machines that accept or reject one input after the other. A run is a list of
inputs; `Along` says that a condition on the state and the next input holds at
every step of it. The two rules are about what acceptance leaves behind: an
accepted input that stays spent is accepted once, and rejections that change
nothing can be deleted from a run.
-/

namespace OpticsAgent.Lib

variable {S A K : Type*}

structure Acceptor (S A : Type*) where
  step : S → A → Bool × S

namespace Acceptor

variable (M : Acceptor S A)

def accepts (s : S) (a : A) : Bool := (M.step s a).1

def next (s : S) (a : A) : S := (M.step s a).2

def outcomes : S → List A → List Bool
  | _, [] => []
  | s, a :: rest => M.accepts s a :: outcomes (M.next s a) rest

/-- The inputs a run accepts, in order. -/
def accepted : S → List A → List A
  | _, [] => []
  | s, a :: rest =>
      if M.accepts s a then a :: accepted (M.next s a) rest else accepted (M.next s a) rest

def final (s : S) (inputs : List A) : S := inputs.foldl M.next s

def Along (ok : S → A → Prop) : S → List A → Prop
  | _, [] => True
  | s, a :: rest => ok s a ∧ Along ok (M.next s a) rest

variable {M}

theorem accepted_cons_of_accepts {s : S} {a : A} (rest : List A) (h : M.accepts s a = true) :
    M.accepted s (a :: rest) = a :: M.accepted (M.next s a) rest := by
  rw [accepted, if_pos h]

theorem accepted_cons_of_rejects {s : S} {a : A} (rest : List A) (h : M.accepts s a = false) :
    M.accepted s (a :: rest) = M.accepted (M.next s a) rest := by
  rw [accepted, if_neg (by simp [h])]

theorem final_append (s : S) (xs ys : List A) :
    M.final s (xs ++ ys) = M.final (M.final s xs) ys :=
  List.foldl_append

theorem accepted_append (s : S) (xs ys : List A) :
    M.accepted s (xs ++ ys) = M.accepted s xs ++ M.accepted (M.final s xs) ys := by
  induction xs generalizing s with
  | nil => rfl
  | cons a rest ih =>
      cases ha : M.accepts s a with
      | false =>
          rw [List.cons_append, accepted_cons_of_rejects _ ha, accepted_cons_of_rejects _ ha, ih]
          rfl
      | true =>
          rw [List.cons_append, accepted_cons_of_accepts _ ha, accepted_cons_of_accepts _ ha, ih]
          rfl

theorem along_append {ok : S → A → Prop} {s : S} {xs ys : List A} :
    M.Along ok s (xs ++ ys) ↔ M.Along ok s xs ∧ M.Along ok (M.final s xs) ys := by
  induction xs generalizing s with
  | nil => exact ⟨fun h => ⟨trivial, h⟩, fun h => h.2⟩
  | cons a rest ih =>
      rw [List.cons_append, Along, Along, ih, and_assoc]
      rfl

theorem Along.invariant {ok : S → A → Prop} {Inv : S → Prop}
    (hinv : ∀ s a, Inv s → ok s a → Inv (M.next s a)) {s : S} (hs : Inv s) {inputs : List A}
    (h : M.Along ok s inputs) : Inv (M.final s inputs) := by
  induction inputs generalizing s with
  | nil => exact hs
  | cons a rest ih => exact ih (hinv s a hs h.1) h.2

theorem Along.of_mem_accepted {ok : S → A → Prop} {allowed : A → Prop}
    (hok : ∀ s a, ok s a → allowed a) {s : S} {inputs : List A} (h : M.Along ok s inputs) :
    ∀ a ∈ M.accepted s inputs, allowed a := by
  induction inputs generalizing s with
  | nil => intro a ha; cases ha
  | cons b rest ih =>
      intro a ha
      cases hb : M.accepts s b with
      | false =>
          rw [accepted_cons_of_rejects rest hb] at ha
          exact ih h.2 a ha
      | true =>
          rw [accepted_cons_of_accepts rest hb] at ha
          rcases List.mem_cons.mp ha with rfl | hrest
          · exact hok s a h.1
          · exact ih h.2 a hrest

/-- A condition that the steps keep for an invariant holds along every run. -/
theorem Along.of_invariant {ok : S → A → Prop} {Inv : S → Prop} {allowed : A → Prop}
    (hok : ∀ s a, Inv s → allowed a → ok s a)
    (hstep : ∀ s a, Inv s → allowed a → Inv (M.next s a)) {s : S} (hs : Inv s)
    {inputs : List A} (hinputs : ∀ a ∈ inputs, allowed a) : M.Along ok s inputs := by
  induction inputs generalizing s with
  | nil => trivial
  | cons a rest ih =>
      obtain ⟨ha, hrest⟩ := List.forall_mem_cons.mp hinputs
      exact ⟨hok s a hs ha, ih (hstep s a hs ha) hrest⟩

/-- Once a key is spent no input that carries it is accepted, so the keys of
the accepted inputs are distinct. -/
theorem nodup_accepted_keys {ok : S → A → Prop} {Inv : S → Prop} (key : A → K)
    (Spent : S → K → Prop) (hinv : ∀ s a, Inv s → ok s a → Inv (M.next s a))
    (hspend : ∀ s a, Inv s → ok s a → M.accepts s a = true → Spent (M.next s a) (key a))
    (hstay : ∀ s a k, Inv s → ok s a → Spent s k → Spent (M.next s a) k)
    (hreject : ∀ s a, Inv s → ok s a → Spent s (key a) → M.accepts s a = false)
    {s : S} (hs : Inv s) {inputs : List A} (hrun : M.Along ok s inputs) :
    ((M.accepted s inputs).map key).Nodup := by
  have hnever : ∀ (inputs : List A) (s : S) (k : K), Inv s → M.Along ok s inputs → Spent s k →
      k ∉ (M.accepted s inputs).map key := by
    intro inputs
    induction inputs with
    | nil => intro s k _ _ _ hmem; cases hmem
    | cons a rest ih =>
        intro s k hs hrun hk
        have htail := ih (M.next s a) k (hinv s a hs hrun.1) hrun.2 (hstay s a k hs hrun.1 hk)
        cases ha : M.accepts s a with
        | false =>
            rw [accepted_cons_of_rejects rest ha]
            exact htail
        | true =>
            rw [accepted_cons_of_accepts rest ha, List.map_cons, List.mem_cons]
            rintro (rfl | hmem)
            · rw [hreject s a hs hrun.1 hk] at ha
              cases ha
            · exact htail hmem
  induction inputs generalizing s with
  | nil => exact List.nodup_nil
  | cons a rest ih =>
      have hs' := hinv s a hs hrun.1
      cases ha : M.accepts s a with
      | false =>
          rw [accepted_cons_of_rejects rest ha]
          exact ih hs' hrun.2
      | true =>
          rw [accepted_cons_of_accepts rest ha, List.map_cons, List.nodup_cons]
          exact ⟨hnever rest _ _ hs' hrun.2 (hspend s a hs hrun.1 ha), ih hs' hrun.2⟩

/-- The state a rejection leaves is the one it found. -/
def Frame (M : Acceptor S A) (s : S) (a : A) : Prop :=
  M.accepts s a = false → M.next s a = s

/-- Deleting the rejected inputs of such a run changes no remaining outcome and
not the final state. -/
theorem outcomes_accepted {s : S} {inputs : List A} (h : M.Along M.Frame s inputs) :
    M.outcomes s (M.accepted s inputs) = (M.outcomes s inputs).filter id ∧
      M.final s (M.accepted s inputs) = M.final s inputs := by
  induction inputs generalizing s with
  | nil => exact ⟨rfl, rfl⟩
  | cons a rest ih =>
      obtain ⟨hframe, hrest⟩ := h
      have htail := ih hrest
      cases ha : M.accepts s a with
      | false =>
          rw [accepted_cons_of_rejects rest ha, outcomes, ha]
          rw [hframe ha] at htail ⊢
          refine ⟨htail.1, ?_⟩
          rw [htail.2, final, final, List.foldl_cons, hframe ha]
      | true =>
          rw [accepted_cons_of_accepts rest ha, outcomes, outcomes, ha]
          exact ⟨congrArg (List.cons true) htail.1, htail.2⟩

end Acceptor

end OpticsAgent.Lib
