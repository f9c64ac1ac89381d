import CopySynth.Proofs.DeepCopy

/-!
# Deeper copies

The bound on the depth of a copy is there to end it. A copy that succeeds within a bound has the same
result within every larger one, whether or not the value it copies is finite.
-/

namespace CopySynth

/-- Whenever a step succeeds, the other one does from the same heap, with the same result. -/
def Refines {α : Type} (step next : Alloc α) : Prop :=
  ∀ before result, step.run before = .ok result → next.run before = .ok result

namespace Refines

variable {α β : Type}

theorem refl (step : Alloc α) : Refines step step := fun _ _ h => h

/-- A step that always fails promises nothing. -/
theorem of_throw (fault : GenerationError) (next : Alloc α) : Refines (throw fault) next := by
  rintro before result ⟨⟩

theorem bind {first first' : Alloc α} {second second' : α → Alloc β} (hf : Refines first first')
    (hs : ∀ a, Refines (second a) (second' a)) :
    Refines (first >>= second) (first' >>= second') := by
  intro before result h
  rw [StateT.run_bind] at h
  obtain ⟨⟨a, mid⟩, hfirst, hsecond⟩ := bind_eq_ok_iff.mp h
  exact run_bind_eq_ok (hf _ _ hfirst) (hs a _ _ hsecond)

theorem mapM {step next : α → Alloc β} (h : ∀ a, Refines (step a) (next a)) (items : List α) :
    Refines (items.mapM step) (items.mapM next) := by
  induction items with
  | nil => exact refl _
  | cons item items ih =>
    rw [List.mapM_cons, List.mapM_cons]
    exact (h item).bind fun b => ih.bind fun bs => refl _

theorem foldlM {step next : β → α → Alloc β} (h : ∀ b a, Refines (step b a) (next b a))
    (items : List α) (b : β) : Refines (items.foldlM step b) (items.foldlM next b) := by
  induction items generalizing b with
  | nil => exact refl _
  | cons item items ih =>
    rw [List.foldlM_cons, List.foldlM_cons]
    exact (h b item).bind ih

end Refines

namespace Synthesis

theorem refines_applyBody {step next : ElementCopy → Value → Alloc Value}
    (h : ∀ how value, Refines (step how value) (next how value)) (type : String) (body : CopyBody)
    (value : Value) : Refines (applyBody step type body value) (applyBody next type body value) := by
  cases body with
  | trivial | shallow => exact .refl _
  | dynamic element =>
    cases value with
    | seq address =>
      exact (Refines.refl _).bind fun heap => (Refines.mapM (h element) _).bind fun _ => .refl _
    | scalar | record | array | unset | slot => exact .of_throw _ _
  | fixed length element =>
    cases value with
    | array items => exact (Refines.mapM (h element) items).bind fun _ => .refl _
    | scalar | record | seq | unset | slot => exact .of_throw _ _
  | record copies =>
    cases value with
    | record fields =>
      refine (Refines.foldlM (fun copy field => ?_) _ _).bind fun _ => .refl _
      dsimp only
      split
      · exact .of_throw _ _
      · exact (h field.2 _).bind fun _ => .refl _
    | scalar | array | seq | unset | slot => exact .of_throw _ _

variable (synthesis : Synthesis) (table : Table)

/-- A copy that succeeds does the same when it may go deeper. -/
theorem copyWithin_refines {depth more : Nat} (h : depth ≤ more) (how : ElementCopy)
    (value : Value) :
    Refines (synthesis.copyWithin table depth how value)
      (synthesis.copyWithin table more how value) := by
  induction depth generalizing more how value with
  | zero => exact .of_throw _ _
  | succ depth ih =>
    obtain ⟨more, rfl⟩ := Nat.exists_eq_add_one_of_ne_zero (Nat.ne_zero_of_lt h)
    have ih := fun how value => ih (Nat.le_of_succ_le_succ h) how value
    cases how with
    | assign | external => exact .refl _
    | capability name =>
      cases value with
      | unset => exact .refl _
      | slot concrete inner =>
        exact (Refines.refl _).bind fun how => (ih how inner).bind fun _ => .refl _
      | scalar | record | array | seq => exact .of_throw _ _
    | helper type =>
      cases hb : synthesis.helperBody table type with
      | error fault =>
        rw [copyWithin_helper_error hb]
        exact .of_throw _ _
      | ok found =>
        rw [copyWithin_helper hb, copyWithin_helper hb]
        exact refines_applyBody ih found.1 found.2 value

end Synthesis

end CopySynth
