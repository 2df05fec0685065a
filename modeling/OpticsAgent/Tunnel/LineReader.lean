import Mathlib
import OpticsAgent.Node.Buffer

/-!
`attachLineReader`: bytes are collected until a newline, every complete line is
handed over as a verb and its arguments together with the bytes behind it, and
the reader stops when the handler detaches it. The world the handler acts on is
a parameter.
-/

namespace OpticsAgent.Tunnel

open OpticsAgent.Ecma OpticsAgent.Node

structure Frame where
  verb : JsString
  args : List JsString
deriving DecidableEq

/-- The bytes before the first newline and the bytes behind it. -/
def takeLine : List Byte → Option (List Byte × List Byte)
  | [] => none
  | b :: rest =>
      if b = 10 then some ([], rest)
      else (takeLine rest).map fun p => (b :: p.1, p.2)

/-- `line.toString('utf8').trim().split(' ')`. -/
def parseFrame (line : List Byte) : Frame :=
  match splitUnit 32 (trim (utf8Text line)) with
  | [] => ⟨[], []⟩
  | verb :: args => ⟨verb, args⟩

section Drain

variable {σ : Type*} (handle : Frame → List Byte → σ → σ × Bool)

/-- The loop of `onData`. The handler says whether it detached the reader; the
result has the bytes left in the buffer. -/
def drain : ℕ → List Byte → σ → σ × List Byte × Bool
  | 0, buffer, s => (s, buffer, false)
  | fuel + 1, buffer, s =>
      match takeLine buffer with
      | none => (s, buffer, false)
      | some (line, rest) =>
          match handle (parseFrame line) rest s with
          | (s', true) => (s', rest, true)
          | (s', false) => drain fuel rest s'

/-- One `data` event; every line takes at least one byte. -/
def onData (buffer chunk : List Byte) (s : σ) : σ × List Byte × Bool :=
  drain handle (buffer ++ chunk).length (buffer ++ chunk) s

/-- Every frame the loop hands over meets `ok` in the world it is handled in. -/
def DrainAll (ok : σ → Frame → Prop) : ℕ → List Byte → σ → Prop
  | 0, _, _ => True
  | fuel + 1, buffer, s =>
      match takeLine buffer with
      | none => True
      | some (line, rest) =>
          ok s (parseFrame line) ∧
            ((handle (parseFrame line) rest s).2 = false →
              DrainAll ok fuel rest (handle (parseFrame line) rest s).1)

instance decidableDrainAll (ok : σ → Frame → Prop) [∀ s frame, Decidable (ok s frame)] :
    ∀ (fuel : ℕ) (buffer : List Byte) (s : σ), Decidable (DrainAll handle ok fuel buffer s)
  | 0, _, _ => isTrue trivial
  | fuel + 1, buffer, s =>
      match h : takeLine buffer with
      | none => isTrue (by simp [DrainAll, h])
      | some (line, rest) =>
          let tail := decidableDrainAll ok fuel rest (handle (parseFrame line) rest s).1
          decidable_of_iff (ok s (parseFrame line) ∧
              ((handle (parseFrame line) rest s).2 = false →
                DrainAll handle ok fuel rest (handle (parseFrame line) rest s).1))
            (by simp [DrainAll, h])

variable {handle}

theorem length_takeLine {buffer line rest : List Byte} (h : takeLine buffer = some (line, rest)) :
    buffer.length = line.length + rest.length + 1 := by
  induction buffer generalizing line with
  | nil => cases h
  | cons b tail ih =>
      unfold takeLine at h
      split_ifs at h with hb
      · obtain ⟨rfl, rfl⟩ := Prod.mk.inj (Option.some.inj h)
        simp
      · obtain ⟨p, htail, hcons⟩ := Option.map_eq_some_iff.mp h
        obtain ⟨rfl, rfl⟩ := Prod.mk.inj hcons
        have hlength := ih htail
        simp only [List.length_cons]
        omega

/-- The fuel suffices: the loop ends by a detach or without a complete line. -/
theorem takeLine_drain {fuel : ℕ} {buffer : List Byte} {s : σ} (hfuel : buffer.length ≤ fuel)
    (hdetached : (drain handle fuel buffer s).2.2 = false) :
    takeLine (drain handle fuel buffer s).2.1 = none := by
  induction fuel generalizing buffer s with
  | zero =>
      obtain rfl := List.eq_nil_of_length_eq_zero (Nat.le_zero.mp hfuel)
      rfl
  | succ fuel ih =>
      unfold drain at hdetached ⊢
      cases hline : takeLine buffer with
      | none => exact hline
      | some p =>
          obtain ⟨line, rest⟩ := p
          simp only [hline] at hdetached ⊢
          cases hhandle : handle (parseFrame line) rest s with
          | mk s' stop =>
              cases stop with
              | true => simp [hhandle] at hdetached
              | false =>
                  simp only [hhandle] at hdetached ⊢
                  have hlength := length_takeLine hline
                  exact ih (by omega) hdetached

/-- What the handler keeps while it is not detached, and what it gives when it
detaches, hold after the loop. -/
theorem drain_invariant (Inv Done : σ → Prop) {ok : σ → Frame → Prop}
    (hkeep : ∀ frame rest s, Inv s → ok s frame → (handle frame rest s).2 = false →
      Inv (handle frame rest s).1)
    (hstop : ∀ frame rest s, Inv s → ok s frame → (handle frame rest s).2 = true →
      Done (handle frame rest s).1)
    {fuel : ℕ} {buffer : List Byte} {s : σ} (hok : DrainAll handle ok fuel buffer s)
    (hs : Inv s) :
    ((drain handle fuel buffer s).2.2 = false ∧ Inv (drain handle fuel buffer s).1) ∨
      ((drain handle fuel buffer s).2.2 = true ∧ Done (drain handle fuel buffer s).1) := by
  induction fuel generalizing buffer s with
  | zero => exact Or.inl ⟨rfl, hs⟩
  | succ fuel ih =>
      unfold DrainAll at hok
      unfold drain
      cases hline : takeLine buffer with
      | none => exact Or.inl ⟨rfl, hs⟩
      | some p =>
          obtain ⟨line, rest⟩ := p
          simp only [hline] at hok ⊢
          obtain ⟨hframe, hrest⟩ := hok
          have hk := hkeep (parseFrame line) rest s hs hframe
          have hd := hstop (parseFrame line) rest s hs hframe
          cases hhandle : handle (parseFrame line) rest s with
          | mk s' stop =>
              rw [hhandle] at hk hd hrest
              cases stop with
              | true => exact Or.inr ⟨rfl, hd rfl⟩
              | false => exact ih (hrest rfl) (hk rfl)

/-- Without a condition on the frames. -/
theorem drainAll_true (fuel : ℕ) (buffer : List Byte) (s : σ) :
    DrainAll handle (fun _ _ => True) fuel buffer s := by
  induction fuel generalizing buffer s with
  | zero => trivial
  | succ fuel ih =>
      unfold DrainAll
      cases takeLine buffer with
      | none => trivial
      | some p => exact ⟨trivial, fun _ => ih _ _⟩

/-- After a `data` event. -/
theorem onData_invariant (Inv Done : σ → Prop) {ok : σ → Frame → Prop}
    (hkeep : ∀ frame rest s, Inv s → ok s frame → (handle frame rest s).2 = false →
      Inv (handle frame rest s).1)
    (hstop : ∀ frame rest s, Inv s → ok s frame → (handle frame rest s).2 = true →
      Done (handle frame rest s).1)
    (hdone : ∀ s, Inv s → Done s) {buffer chunk : List Byte} {s : σ}
    (hok : DrainAll handle ok (buffer ++ chunk).length (buffer ++ chunk) s) (hs : Inv s) :
    Done (onData handle buffer chunk s).1 := by
  rcases drain_invariant Inv Done hkeep hstop hok hs with ⟨-, hkept⟩ | ⟨-, hgone⟩
  · exact hdone _ hkept
  · exact hgone

/-! ## One frame of a chunk -/

variable (handle) in
/-- The loop hands the frame over, and `t` is the world right after it. -/
def HandedOver (frame : Frame) (t : σ) : ℕ → List Byte → σ → Prop
  | 0, _, _ => False
  | fuel + 1, buffer, s =>
      match takeLine buffer with
      | none => False
      | some (line, rest) =>
          (frame = parseFrame line ∧ t = (handle (parseFrame line) rest s).1) ∨
            ((handle (parseFrame line) rest s).2 = false ∧
              HandedOver frame t fuel rest (handle (parseFrame line) rest s).1)

theorem handedOver_first {buffer line rest : List Byte}
    (h : takeLine buffer = some (line, rest)) (s : σ) :
    HandedOver handle (parseFrame line) (handle (parseFrame line) rest s).1 buffer.length buffer
      s := by
  have hlength := length_takeLine h
  rw [hlength, HandedOver, h]
  exact .inl ⟨rfl, rfl⟩

/-- What every frame keeps holds when the frame is handed over. -/
theorem HandedOver.before {Inv : σ → Prop}
    (hkeep : ∀ frame rest s, Inv s → Inv (handle frame rest s).1) {frame : Frame} {t : σ}
    {fuel : ℕ} {buffer : List Byte} {s : σ} (h : HandedOver handle frame t fuel buffer s)
    (hs : Inv s) : ∃ u rest, Inv u ∧ t = (handle frame rest u).1 := by
  induction fuel generalizing buffer s with
  | zero => exact h.elim
  | succ fuel ih =>
      unfold HandedOver at h
      cases hline : takeLine buffer with
      | none =>
          rw [hline] at h
          exact h.elim
      | some p =>
          obtain ⟨line, rest⟩ := p
          simp only [hline] at h
          obtain ⟨rfl, rfl⟩ | ⟨-, hlater⟩ := h
          · exact ⟨s, rest, hs, rfl⟩
          · exact ih hlater (hkeep _ rest s hs)

/-- What holds right after a frame and is kept by every frame holds when the
loop ends. -/
theorem HandedOver.after {Inv : σ → Prop}
    (hkeep : ∀ frame rest s, Inv s → Inv (handle frame rest s).1) {frame : Frame} {t : σ}
    {fuel : ℕ} {buffer : List Byte} {s : σ} (h : HandedOver handle frame t fuel buffer s)
    (ht : Inv t) : Inv (drain handle fuel buffer s).1 := by
  have hrest (fuel : ℕ) (buffer : List Byte) (s : σ) (hs : Inv s) :
      Inv (drain handle fuel buffer s).1 := by
    obtain ⟨-, h⟩ | ⟨-, h⟩ := drain_invariant Inv Inv
      (fun frame rest s hs _ _ => hkeep frame rest s hs)
      (fun frame rest s hs _ _ => hkeep frame rest s hs) (drainAll_true fuel buffer s) hs
    · exact h
    · exact h
  induction fuel generalizing buffer s with
  | zero => exact h.elim
  | succ fuel ih =>
      unfold HandedOver at h
      unfold drain
      cases hline : takeLine buffer with
      | none =>
          rw [hline] at h
          exact h.elim
      | some p =>
          obtain ⟨line, rest⟩ := p
          simp only [hline] at h ⊢
          cases hhandle : handle (parseFrame line) rest s with
          | mk s' stop =>
              rw [hhandle] at h
              obtain ⟨-, rfl⟩ | ⟨hreading, hlater⟩ := h
              · cases stop with
                | true => exact ht
                | false => exact hrest fuel rest _ ht
              · cases stop with
                | true => cases hreading
                | false => exact ih hlater

/-- What a frame keeps unless it is `Bad` holds when the loop ends, unless a bad
frame is handed over. -/
theorem handedOver_or_drain {Inv : σ → Prop} {Bad : Frame → σ → Prop}
    (hkeep : ∀ frame rest s, Inv s →
      Bad frame (handle frame rest s).1 ∨ Inv (handle frame rest s).1)
    {fuel : ℕ} {buffer : List Byte} {s : σ} (hs : Inv s) :
    (∃ frame t, HandedOver handle frame t fuel buffer s ∧ Bad frame t) ∨
      Inv (drain handle fuel buffer s).1 := by
  induction fuel generalizing buffer s with
  | zero => exact Or.inr hs
  | succ fuel ih =>
      unfold HandedOver drain
      cases takeLine buffer with
      | none => exact Or.inr hs
      | some p =>
          obtain ⟨line, rest⟩ := p
          have hfirst := hkeep (parseFrame line) rest s hs
          dsimp only
          cases hhandle : handle (parseFrame line) rest s with
          | mk s' stop =>
              rw [hhandle] at hfirst
              rcases hfirst with hbad | hkept
              · exact Or.inl ⟨_, s', Or.inl ⟨rfl, rfl⟩, hbad⟩
              · cases stop with
                | true => exact Or.inr hkept
                | false =>
                    rcases @ih rest s' hkept with ⟨frame, t, hlater, hbad⟩ | hend
                    · exact Or.inl ⟨frame, t, Or.inr ⟨rfl, hlater⟩, hbad⟩
                    · exact Or.inr hend

end Drain

end OpticsAgent.Tunnel
