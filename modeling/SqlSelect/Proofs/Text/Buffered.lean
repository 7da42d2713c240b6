/-!
# Programs over a text buffer

Programs that share one text and write at its end, until one of them fails. A failure ends
them all, and what was written before it stays in the buffer.

## Main definitions

* `Buffered`: a program that may fail, over a text;
* `Buffered.run`: its result and the text that it leaves;
* `Buffered.textFrom` and `Buffered.text`: that text, if the program does not fail;
* `Buffered.AppendOnly`: the text before a program stays, and decides nothing.

## Main statements

* `Buffered.AppendOnly.bind`: programs that only append can be put one after another;
* `Buffered.AppendOnly.textFrom_eq`: what such a program writes into a buffer of its own, it
  writes behind any text.
-/

namespace SqlSelect

/-- A program over a text, which may fail with an `ε`. -/
abbrev Buffered (ε : Type) := ExceptT ε (StateM String)

namespace Buffered

variable {ε α β : Type}

def push (t : String) : Buffered ε Unit := modify (· ++ t)

/-- The result of a program that starts behind `out`, with the text that it leaves. -/
def run (w : Buffered ε α) (out : String) : Except ε α × String :=
  Id.run (StateT.run (ExceptT.run w) out)

/-- The text that a program leaves which starts behind `out`, unless it fails. -/
def textFrom (w : Buffered ε Unit) (out : String) : Except ε String :=
  (w.run out).1.map fun _ => (w.run out).2

/-- The text that a program writes into a buffer of its own. -/
def text (w : Buffered ε Unit) : Except ε String := w.textFrom ""

/-! ### Running programs -/

@[simp] theorem run_pure (a : α) (out : String) :
    run (pure a : Buffered ε α) out = (.ok a, out) := rfl

@[simp] theorem run_push (t out : String) :
    run (push t : Buffered ε Unit) out = (.ok (), out ++ t) := rfl

@[simp] theorem run_lift (x : Except ε α) (out : String) :
    run (liftM x : Buffered ε α) out = (x, out) := rfl

theorem run_bind (w : Buffered ε α) (f : α → Buffered ε β) (out : String) :
    run (w >>= f) out =
      match w.run out with
      | (.ok a, out') => (f a).run out'
      | (.error e, out') => (.error e, out') := by
  change Id.run (StateT.run (ExceptT.run (w >>= f)) out) = _
  rw [ExceptT.run_bind, StateT.run_bind]
  simp only [run]
  rcases StateT.run (ExceptT.run w) out with ⟨e | a, out'⟩
  · rfl
  · rfl

/-! ### Texts of programs -/

@[simp] theorem textFrom_push (t out : String) :
    textFrom (push t : Buffered ε Unit) out = pure (out ++ t) := rfl

@[simp] theorem textFrom_lift_bind (x : Except ε α) (f : α → Buffered ε Unit) (out : String) :
    textFrom (liftM x >>= f) out = x >>= fun a => (f a).textFrom out := by
  rw [textFrom, run_bind, run_lift]
  cases x with
  | error e => rfl
  | ok a => rfl

@[simp] theorem textFrom_bind (w : Buffered ε Unit) (f : Unit → Buffered ε Unit) (out : String) :
    textFrom (w >>= f) out = w.textFrom out >>= fun out' => (f ()).textFrom out' := by
  rw [textFrom, textFrom, run_bind]
  rcases w.run out with ⟨e | _, out'⟩
  · rfl
  · rfl

theorem textFrom_eq_ok_iff {w : Buffered ε Unit} {out t : String} :
    w.textFrom out = .ok t ↔ w.run out = (.ok (), t) := by
  rw [textFrom]
  rcases w.run out with ⟨e | _, out'⟩
  · simp [Except.map]
  · simp [Except.map]

theorem textFrom_eq_error_iff {w : Buffered ε Unit} {out : String} {e : ε} :
    w.textFrom out = .error e ↔ (w.run out).1 = .error e := by
  rw [textFrom]
  rcases w.run out with ⟨e' | _, out'⟩
  · simp [Except.map]
  · simp [Except.map]

/-! ### Programs that only append -/

/-- A program only appends if it has the result that it has in an empty buffer, and leaves
    behind the text before it what it leaves there, also when it fails. -/
def AppendOnly (w : Buffered ε α) : Prop :=
  ∀ out, w.run out = ((w.run "").1, out ++ (w.run "").2)

theorem appendOnly_pure (a : α) : AppendOnly (pure a : Buffered ε α) := by
  intro out
  simp

theorem appendOnly_push (t : String) : AppendOnly (push t : Buffered ε Unit) := by
  intro out
  simp

theorem appendOnly_lift (x : Except ε α) : AppendOnly (liftM x : Buffered ε α) := by
  intro out
  simp

namespace AppendOnly

theorem bind {w : Buffered ε α} {f : α → Buffered ε β} (hw : w.AppendOnly)
    (hf : ∀ a, (f a).AppendOnly) : Buffered.AppendOnly (w >>= f) := by
  intro out
  rw [run_bind, run_bind, hw out]
  rcases w.run "" with ⟨e | a, written⟩
  · rfl
  · -- The second program starts behind what the first one has written.
    change (f a).run (out ++ written) = (((f a).run written).1, out ++ ((f a).run written).2)
    rw [hf a (out ++ written), hf a written, String.append_assoc]

theorem textFrom_eq {w : Buffered ε Unit} (hw : w.AppendOnly) (out : String) :
    w.textFrom out = (out ++ ·) <$> w.text := by
  rw [text, textFrom, textFrom, hw out]
  rcases w.run "" with ⟨e | _, written⟩
  · rfl
  · rfl

end AppendOnly

end Buffered

end SqlSelect
