import Mathlib.Data.List.Forall2
import Mathlib.Data.List.Nodup

/-!
# Walks along lists

A walk whose steps may fail succeeds exactly when its step succeeds at every item, and its results
stand in the order of the items.
-/

namespace CopySynth

variable {ε α β : Type}

theorem ok_bind (a : α) (f : α → Except ε β) : (Except.ok a >>= f) = f a := rfl

theorem error_bind (e : ε) (f : α → Except ε β) : (Except.error e >>= f) = .error e := rfl

/-- Two steps in a row succeed when the first does and the second does with its result. -/
theorem bind_eq_ok_iff {x : Except ε α} {f : α → Except ε β} {b : β} :
    (x >>= f) = .ok b ↔ ∃ a, x = .ok a ∧ f a = .ok b := by
  cases x <;> simp [bind, Except.bind]

/-- Two steps in a row fail when the first does, or the second with the result of the first. -/
theorem bind_eq_error_iff {x : Except ε α} {f : α → Except ε β} {e : ε} :
    (x >>= f) = .error e ↔ x = .error e ∨ ∃ a, x = .ok a ∧ f a = .error e := by
  cases x <;> simp [bind, Except.bind]

theorem pure_eq_ok_iff {a b : α} : (pure a : Except ε α) = .ok b ↔ a = b := by
  simp [pure, Except.pure]

theorem throw_ne_ok {e : ε} {a : α} : (throw e : Except ε α) ≠ .ok a := by
  simp [throw, throwThe, MonadExceptOf.throw]

theorem mapM_eq_ok_iff {f : α → Except ε β} {xs : List α} {ys : List β} :
    xs.mapM f = .ok ys ↔ List.Forall₂ (fun x y => f x = .ok y) xs ys := by
  induction xs generalizing ys with
  | nil => cases ys <;> simp [pure_eq_ok_iff]
  | cons x xs ih =>
    simp only [List.mapM_cons, bind_eq_ok_iff, pure_eq_ok_iff, List.forall₂_cons_left_iff, ih]
    constructor
    · rintro ⟨y, hy, ys, hys, rfl⟩
      exact ⟨y, ys, hy, hys, rfl⟩
    · rintro ⟨y, ys, hy, hys, rfl⟩
      exact ⟨y, hy, ys, hys, rfl⟩

/-- A walk fails as its step does at some item. -/
theorem exists_of_mapM_eq_error {f : α → Except ε β} {xs : List α} {e : ε}
    (h : xs.mapM f = .error e) : ∃ x ∈ xs, f x = .error e := by
  induction xs with
  | nil => cases h
  | cons x xs ih =>
    rw [List.mapM_cons] at h
    rcases bind_eq_error_iff.mp h with hx | ⟨y, _, h⟩
    · exact ⟨x, List.mem_cons_self, hx⟩
    · rcases bind_eq_error_iff.mp h with hxs | ⟨ys, _, h⟩
      · obtain ⟨z, hz, found⟩ := ih hxs
        exact ⟨z, List.mem_cons_of_mem _ hz, found⟩
      · cases h

/-- A walk over changed items is one over the items, when its steps are the same. -/
theorem mapM_map_congr {γ : Type} {g : α → γ} {f : γ → Except ε β} {f' : α → Except ε β}
    {xs : List α} (h : ∀ x ∈ xs, f (g x) = f' x) : (xs.map g).mapM f = xs.mapM f' := by
  induction xs with
  | nil => rfl
  | cons x xs ih =>
    obtain ⟨hx, hxs⟩ := List.forall_mem_cons.mp h
    rw [List.map_cons, List.mapM_cons, List.mapM_cons, hx, ih hxs]

/-- A walk with a state fails because its step fails at some item, in some state. -/
theorem exists_of_foldlM_eq_error {f : β → α → Except ε β} {xs : List α} {b : β} {e : ε}
    (h : xs.foldlM f b = .error e) : ∃ x ∈ xs, ∃ b, f b x = .error e := by
  induction xs generalizing b with
  | nil => cases h
  | cons x xs ih =>
    rw [List.foldlM_cons] at h
    cases hx : f b x with
    | error fault =>
      rw [hx] at h
      cases h
      exact ⟨x, List.mem_cons_self, b, hx⟩
    | ok next =>
      rw [hx] at h
      obtain ⟨y, hy, found⟩ := ih h
      exact ⟨y, List.mem_cons_of_mem _ hy, found⟩

/-- The step has no other faults than these. -/
def FailsOnly (P : ε → Prop) (step : Except ε α) : Prop := ∀ fault, step = .error fault → P fault

namespace FailsOnly

variable {P : ε → Prop}

theorem ok (a : α) : FailsOnly P (.ok a) := fun _ h => by cases h

theorem error {fault : ε} (h : P fault) : FailsOnly P (.error fault : Except ε α) := by
  rintro _ ⟨⟩
  exact h

theorem bind {first : Except ε α} {second : α → Except ε β} (hf : FailsOnly P first)
    (hs : ∀ a, FailsOnly P (second a)) : FailsOnly P (first >>= second) := by
  intro fault h
  rcases bind_eq_error_iff.mp h with h | ⟨a, _, h⟩
  · exact hf fault h
  · exact hs a fault h

theorem allM {question : α → Except ε Bool} {xs : List α}
    (h : ∀ x ∈ xs, FailsOnly P (question x)) : FailsOnly P (xs.allM question) := by
  induction xs with
  | nil => exact .ok true
  | cons x xs ih =>
    obtain ⟨hx, hxs⟩ := List.forall_mem_cons.mp h
    rw [List.allM]
    refine .bind hx fun answer => ?_
    cases answer with
    | false => exact .ok false
    | true => exact ih hxs

theorem mapM {step : α → Except ε β} {xs : List α} (h : ∀ x ∈ xs, FailsOnly P (step x)) :
    FailsOnly P (xs.mapM step) := by
  intro fault hfault
  obtain ⟨x, hm, hx⟩ := exists_of_mapM_eq_error hfault
  exact h x hm fault hx

end FailsOnly

/-- Both steps succeed, with results so related, or both fail. -/
def SameOutcome (R : α → β → Prop) : Except ε α → Except ε β → Prop
  | .ok a, .ok b => R a b
  | .error _, .error _ => True
  | .ok _, .error _ | .error _, .ok _ => False

theorem SameOutcome.of_iff {R : α → β → Prop} {first : Except ε α} {second : Except ε β}
    (hiff : (∃ a, first = .ok a) ↔ ∃ b, second = .ok b)
    (hr : ∀ a b, first = .ok a → second = .ok b → R a b) : SameOutcome R first second := by
  cases first with
  | ok a =>
    obtain ⟨b, rfl⟩ := hiff.mp ⟨a, rfl⟩
    exact hr a b rfl rfl
  | error fault =>
    cases second with
    | error => trivial
    | ok b =>
      obtain ⟨a, ha⟩ := hiff.mpr ⟨b, rfl⟩
      cases ha

theorem mapM_eq_some_iff {f : α → Option β} {xs : List α} {ys : List β} :
    xs.mapM f = some ys ↔ List.Forall₂ (fun x y => f x = some y) xs ys := by
  induction xs generalizing ys with
  | nil => cases ys <;> simp
  | cons x xs ih =>
    simp only [List.mapM_cons, Option.bind_eq_bind, Option.bind_eq_some_iff, Option.pure_def,
      Option.some.injEq, List.forall₂_cons_left_iff, ih]
    constructor
    · rintro ⟨y, hy, ys, hys, rfl⟩
      exact ⟨y, ys, hy, hys, rfl⟩
    · rintro ⟨y, ys, hy, hys, rfl⟩
      exact ⟨y, hy, ys, hys, rfl⟩

/-- A question to all items, when the first and the others have an answer. -/
theorem allM_cons_eq_pure {m : Type → Type} [Monad m] [LawfulMonad m] {f : α → m Bool} {x : α}
    {xs : List α} {a b : Bool} (hx : f x = pure a) (hxs : xs.allM f = pure b) :
    (x :: xs).allM f = pure (a && b) := by
  rw [List.allM, hx, pure_bind]
  cases a with
  | true => exact hxs
  | false => rfl

/-- A question to all items whose answers are known from their partners. -/
theorem allM_eq_ok_all {f : α → Except ε Bool} {g : β → Bool} {xs : List α} {ys : List β}
    (h : List.Forall₂ (fun x y => f x = .ok (g y)) xs ys) : xs.allM f = .ok (ys.all g) := by
  induction h with
  | nil => rfl
  | cons hx _ ih => exact allM_cons_eq_pure hx ih

/-- A question to all items goes on as long as the answer is positive. -/
theorem allM_cons_ok {f : α → Except ε Bool} {x : α} {xs : List α} {answer : Bool}
    (hx : f x = .ok answer) :
    (x :: xs).allM f = if answer then xs.allM f else .ok false := by
  rw [List.allM, hx]
  cases answer <;> rfl

theorem allM_cons_error {f : α → Except ε Bool} {x : α} {xs : List α} {e : ε}
    (hx : f x = .error e) : (x :: xs).allM f = .error e := by
  rw [List.allM, hx]
  rfl

theorem allM_eq_ok_true_iff {f : α → Except ε Bool} {xs : List α} :
    xs.allM f = .ok true ↔ ∀ x ∈ xs, f x = .ok true := by
  induction xs with
  | nil => simp [List.allM, pure_eq_ok_iff]
  | cons x xs ih =>
    rw [List.forall_mem_cons, ← ih]
    cases hx : f x with
    | error e =>
      rw [allM_cons_error hx]
      simp
    | ok answer =>
      rw [allM_cons_ok hx]
      cases answer <;> simp

/-- The answer is negative because of the first item of which it is. -/
theorem allM_eq_ok_false_iff {f : α → Except ε Bool} {xs : List α} :
    xs.allM f = .ok false ↔ ∃ before x after, xs = before ++ x :: after ∧
      (∀ y ∈ before, f y = .ok true) ∧ f x = .ok false := by
  constructor
  · intro h
    induction xs with
    | nil => cases h
    | cons x xs ih =>
      cases hx : f x with
      | error e =>
        rw [allM_cons_error hx] at h
        cases h
      | ok answer =>
        rw [allM_cons_ok hx] at h
        cases answer with
        | false => exact ⟨[], x, xs, rfl, by simp, hx⟩
        | true =>
          obtain ⟨before, y, after, rfl, hb, hy⟩ := ih h
          exact ⟨x :: before, y, after, rfl, List.forall_mem_cons.mpr ⟨hx, hb⟩, hy⟩
  · rintro ⟨before, x, after, rfl, hb, hx⟩
    induction before with
    | nil => exact allM_cons_ok hx
    | cons y before ih =>
      obtain ⟨hy, hb⟩ := List.forall_mem_cons.mp hb
      rw [List.cons_append, allM_cons_ok hy]
      exact ih hb

/-- Either all items are of one kind, or there is a first item of the other. -/
theorem forall_or_exists_first {P Q : α → Prop} {xs : List α}
    (h : ∀ x ∈ xs, P x ∨ Q x) :
    (∀ x ∈ xs, P x) ∨ ∃ before x after, xs = before ++ x :: after ∧ (∀ y ∈ before, P y) ∧ Q x := by
  induction xs with
  | nil => exact .inl (by simp)
  | cons x xs ih =>
    obtain ⟨hx, hxs⟩ := List.forall_mem_cons.mp h
    rcases hx with hx | hx
    · rcases ih hxs with hall | ⟨before, y, after, rfl, hb, hy⟩
      · exact .inl (List.forall_mem_cons.mpr ⟨hx, hall⟩)
      · exact .inr ⟨x :: before, y, after, rfl, List.forall_mem_cons.mpr ⟨hx, hb⟩, hy⟩
    · exact .inr ⟨[], x, xs, rfl, by simp, hx⟩

/-- Each item on the left has its partner on the right. -/
theorem exists_of_mem_left {R : α → β → Prop} {xs : List α} {ys : List β} (h : List.Forall₂ R xs ys)
    {x : α} (hx : x ∈ xs) : ∃ y ∈ ys, R x y := by
  induction h with
  | nil => simp at hx
  | cons hr _ ih =>
    rcases List.mem_cons.mp hx with rfl | hx
    · exact ⟨_, by simp, hr⟩
    · obtain ⟨y, hy, hr⟩ := ih hx
      exact ⟨y, by simp [hy], hr⟩

/-- Each item on the right has its partner on the left. -/
theorem exists_of_mem_right {R : α → β → Prop} {xs : List α} {ys : List β}
    (h : List.Forall₂ R xs ys) {y : β} (hy : y ∈ ys) : ∃ x ∈ xs, R x y :=
  exists_of_mem_left (R := fun y x => R x y) h.flip hy

/-- Items without anything of their own can be left out. -/
theorem flatMap_filter_eq {p : α → Bool} {f : α → List β} {xs : List α}
    (h : ∀ x ∈ xs, p x = false → f x = []) : (xs.filter p).flatMap f = xs.flatMap f := by
  induction xs with
  | nil => rfl
  | cons x xs ih =>
    have ih := ih fun y hy => h y (List.mem_cons_of_mem _ hy)
    cases hp : p x with
    | true => simp [hp, ih]
    | false => simp [hp, ih, h x List.mem_cons_self hp]

/-- What holds of partners may be used where it is known of which list they are. -/
theorem forall₂_imp_of_mem {R S : α → β → Prop} {xs : List α} {ys : List β}
    (h : List.Forall₂ R xs ys) (hs : ∀ x ∈ xs, ∀ y ∈ ys, R x y → S x y) : List.Forall₂ S xs ys := by
  induction h with
  | nil => exact .nil
  | cons hr _ ih =>
    refine .cons (hs _ List.mem_cons_self _ List.mem_cons_self hr) (ih fun x hx y hy => ?_)
    exact hs x (List.mem_cons_of_mem _ hx) y (List.mem_cons_of_mem _ hy)

/-- Two lists whose items are partners of the same items. -/
theorem forall₂_of_left {γ : Type} {R : α → β → Prop} {S : α → γ → Prop} {T : β → γ → Prop}
    {xs : List α} {ys : List β} {zs : List γ} (hy : List.Forall₂ R xs ys)
    (hz : List.Forall₂ S xs zs) (h : ∀ x ∈ xs, ∀ y ∈ ys, ∀ z ∈ zs, R x y → S x z → T y z) :
    List.Forall₂ T ys zs := by
  induction hy generalizing zs with
  | nil =>
    cases hz
    exact .nil
  | cons hr _ ih =>
    cases hz with
    | cons hs hz =>
      refine .cons (h _ List.mem_cons_self _ List.mem_cons_self _ List.mem_cons_self hr hs) ?_
      refine ih hz fun x hx y hy z hz => ?_
      exact h x (List.mem_cons_of_mem _ hx) y (List.mem_cons_of_mem _ hy) z
        (List.mem_cons_of_mem _ hz)

/-- Partners stay partners when the last item of each list is dropped. -/
theorem forall₂_dropLast {R : α → β → Prop} {xs : List α} {ys : List β}
    (h : List.Forall₂ R xs ys) : List.Forall₂ R xs.dropLast ys.dropLast := by
  induction h with
  | nil => exact .nil
  | cons hr hrest ih =>
    cases hrest with
    | nil => exact .nil
    | cons => exact .cons hr ih

/-- Partners that exist for each item can be listed. -/
theorem exists_forall₂ {R : α → β → Prop} {xs : List α} (h : ∀ x ∈ xs, ∃ y, R x y) :
    ∃ ys, List.Forall₂ R xs ys := by
  induction xs with
  | nil => exact ⟨[], .nil⟩
  | cons x xs ih =>
    obtain ⟨y, hy⟩ := h x List.mem_cons_self
    obtain ⟨ys, hys⟩ := ih fun x hx => h x (List.mem_cons_of_mem _ hx)
    exact ⟨y :: ys, .cons hy hys⟩

/-- Named partners have the same names in the same order. -/
theorem names_eq_of_forall₂ {κ : Type} {R : κ × α → κ × β → Prop} {xs : List (κ × α)}
    {ys : List (κ × β)} (h : List.Forall₂ (fun x y => y.1 = x.1 ∧ R x y) xs ys) :
    ys.map Prod.fst = xs.map Prod.fst := by
  induction h with
  | nil => rfl
  | cons hr _ ih => rw [List.map_cons, List.map_cons, hr.1, ih]

/-- Named partners whose names are distinct are partners wherever they stand. -/
theorem rel_of_mem_named {κ : Type} {R : κ × α → κ × β → Prop} {xs : List (κ × α)}
    {ys : List (κ × β)} (h : List.Forall₂ (fun x y => y.1 = x.1 ∧ R x y) xs ys)
    (hn : (xs.map Prod.fst).Nodup) {x : κ × α} {y : κ × β} (hx : x ∈ xs) (hy : y ∈ ys)
    (he : y.1 = x.1) : R x y := by
  obtain ⟨y', hy', he', hr⟩ := exists_of_mem_left h hx
  rw [← names_eq_of_forall₂ h] at hn
  rw [List.inj_on_of_nodup_map hn hy hy' (he.trans he'.symm)]
  exact hr

/-- Named items with the names of some others and the same partners as these. -/
theorem exists_of_mem_named {κ γ : Type} {R : κ × α → γ → Prop} {S : β → γ → Prop}
    {xs : List (κ × α)} {ys : List (κ × β)} {zs : List γ} (hn : ys.map Prod.fst = xs.map Prod.fst)
    (hx : List.Forall₂ R xs zs) (hy : List.Forall₂ S (ys.map Prod.snd) zs) {y : κ × β}
    (h : y ∈ ys) : ∃ x ∈ xs, ∃ z, x.1 = y.1 ∧ R x z ∧ S y.2 z := by
  induction hx generalizing ys with
  | nil =>
    rw [List.map_nil, List.map_eq_nil_iff] at hn
    simp [hn] at h
  | @cons x z xs zs hr _ ih =>
    cases ys with
    | nil => simp at h
    | cons first ys =>
      simp only [List.map_cons, List.cons.injEq] at hn
      cases hy with
      | cons hs hrest =>
        rcases List.mem_cons.mp h with rfl | h
        · exact ⟨x, List.mem_cons_self, z, hn.1.symm, hr, hs⟩
        · obtain ⟨x', hx', hfound⟩ := ih hn.2 hrest h
          exact ⟨x', List.mem_cons_of_mem _ hx', hfound⟩

end CopySynth
