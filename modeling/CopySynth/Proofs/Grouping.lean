import CopySynth.Proofs.Precedence

/-!
# How operators group what is read

The right operand of a comparison is read up to the first operator that does not bind tighter. An
expression that could go on with a conjunction is read up to its end. So no expression that is read
has a comparison whose right operand goes on with a looser operator, or a conjunction whose left
operand could go on with the conjunction.
-/

namespace CopySynth.Code

namespace Grammar

variable {grammar : Grammar} {turns : Nat} {left right whole e : Expr} {t r : List Token}

/-- A conjunction goes on only behind a closed expression. -/
def Sealed (e : Expr) (r : List Token) : Prop := begins "&&" r → e.closed

/-- What the readers of operators read is grouped, and read to its end. -/
structure Groups (grammar : Grammar) (turns : Nat) : Prop where
  climb : ∀ level left t whole r, left.grouped → Sealed left t →
    grammar.climb turns level left t = some (whole, r) →
    whole.grouped ∧ Sealed whole r ∧ (Level.compare < level → left.tight → whole.tight) ∧
      (level ≤ BinaryOp.and.level → ¬ begins "&&" r)
  rightOperand : ∀ level t right r, grammar.rightOperand turns level t = some (right, r) →
    right.grouped ∧ Sealed right r ∧ (level = Level.compare → right.tight) ∧
      (level < BinaryOp.and.level → ¬ begins "&&" r)
  absorb : ∀ level right t whole r, right.grouped → Sealed right t →
    grammar.absorb turns level right t = some (whole, r) →
    whole.grouped ∧ Sealed whole r ∧ (level = Level.compare → right.tight → whole.tight) ∧
      (level < BinaryOp.and.level → ¬ begins "&&" r)
  upperBound : ∀ inclusive t upper r, grammar.upperBound turns inclusive t = some (upper, r) →
    ¬ begins "&&" r

section Step

variable (hg : grammar.Steady) (ih : grammar.Groups turns)

include ih in
theorem climb_groups {level : Level} (hl : left.grouped) (hs : Sealed left t)
    (h : grammar.climb (turns + 1) level left t = some (whole, r)) :
    whole.grouped ∧ Sealed whole r ∧ (Level.compare < level → left.tight → whole.tight) ∧
      (level ≤ BinaryOp.and.level → ¬ begins "&&" r) := by
  rcases climb_cases h with ⟨rfl, rfl, hstop⟩ | ⟨-, ⟨op, rest, right, rest', ho, hop, hr, h⟩ |
    ⟨inclusive, rest, upper, rest', hrange, -, hu, h⟩ | ⟨rest, target, rest', -, -, -, h⟩⟩
  · refine ⟨hl, hs, fun _ => id, fun hlevel hgoes => ?_⟩
    have hclosed := hs hgoes
    obtain ⟨joined, rest, rfl⟩ := exists_of_begins_and hgoes
    exact Nat.not_lt.mpr hlevel (hstop (Expr.isRange_of_closed hclosed) _ _ read?_conjunct)
  · obtain ⟨hgrouped, hsealed, htight, -⟩ := ih.rightOperand _ _ _ _ hr
    have hjoined : (Expr.binary op left right).grouped := by
      have hcompare : op.level ≠ Level.compare ∨ right.tight :=
        (Decidable.em _).symm.imp id htight
      have hand : op ≠ .and ∨ left.closed := by
        refine (Decidable.em _).symm.imp id fun hop => hs ?_
        subst hop
        exact begins_and_of_read? ho
      simp [Expr.grouped, hl, hgrouped, hcompare, hand]
    obtain ⟨hw, hsw, ht, hend⟩ := ih.climb _ _ _ _ _ hjoined hsealed h
    refine ⟨hw, hsw, fun hlevel hleft => ht hlevel ?_, hend⟩
    simp [Expr.tight, hleft, Nat.lt_of_lt_of_le hlevel hop]
  · have hopen : Sealed (.range inclusive (some left) upper) rest' :=
      fun hgoes => absurd hgoes (ih.upperBound _ _ _ _ hu)
    obtain ⟨hw, hsw, -, hend⟩ := ih.climb _ _ _ _ _ rfl hopen h
    exact ⟨hw, hsw, fun hlevel => absurd (Nat.lt_of_lt_of_le hlevel hrange) (by decide), hend⟩
  · obtain ⟨hw, hsw, ht, hend⟩ := ih.climb _ _ _ _ _ rfl (fun _ => rfl) h
    exact ⟨hw, hsw, fun hlevel hleft => ht hlevel hleft, hend⟩

include hg ih

theorem rightOperand_groups {level : Level}
    (h : grammar.rightOperand (turns + 1) level t = some (right, r)) :
    right.grouped ∧ Sealed right r ∧ (level = Level.compare → right.tight) ∧
      (level < BinaryOp.and.level → ¬ begins "&&" r) := by
  rw [rightOperand] at h
  obtain ⟨⟨first, rest⟩, hf, h⟩ := Option.bind_eq_some_iff.mp h
  obtain ⟨hgrouped, hs, ht, hend⟩ := ih.absorb level first rest right r
    (hg.operand_grouped _ _ _ hf) (hg.operand_sealed _ _ _ hf) h
  exact ⟨hgrouped, hs, fun hl => ht hl (Expr.tight_of_joins (hg.operand_single _ _ _ hf)), hend⟩

theorem absorb_groups {level : Level} (hr : right.grouped) (hs : Sealed right t)
    (h : grammar.absorb (turns + 1) level right t = some (whole, r)) :
    whole.grouped ∧ Sealed whole r ∧ (level = Level.compare → right.tight → whole.tight) ∧
      (level < BinaryOp.and.level → ¬ begins "&&" r) := by
  rw [absorb] at h
  dsimp only at h
  split at h
  · rename_i hn
    obtain ⟨⟨wider, rest⟩, hw, h⟩ := Option.bind_eq_some_iff.mp h
    obtain ⟨hgrouped, hsw, ht, hend⟩ := ih.climb (nextLevel t) right t _ _ hr hs hw
    have hnext (hlevel : level = Level.compare) (hright : right.tight) : wider.tight := by
      refine ht ?_ hright
      subst hlevel
      rcases hn with hn | ⟨hsame, hassign⟩
      · exact hn
      · rw [← hsame] at hassign
        cases hassign
    dsimp only at h
    split at h
    · rename_i hlength
      cases h
      refine ⟨hgrouped, hsw, hnext, fun hlevel hgoes => ?_⟩
      -- nothing was taken, so the conjunction is the operator that was asked for
      cases hg.climb_of_length hw hlength
      have hsame : nextLevel t = BinaryOp.and.level := by
        obtain ⟨joined, others, rfl⟩ := exists_of_begins_and hgoes
        exact nextLevel_conjunct
      exact hend (Nat.le_of_eq hsame) hgoes
    · obtain ⟨hga, hsa, hta, henda⟩ := ih.absorb level wider rest _ _ hgrouped hsw h
      exact ⟨hga, hsa, fun hlevel hright => hta hlevel (hnext hlevel hright), henda⟩
  · rename_i hn
    cases h
    refine ⟨hr, hs, fun _ => id, fun hlevel hgoes => hn (.inl ?_)⟩
    obtain ⟨joined, rest, rfl⟩ := exists_of_begins_and hgoes
    exact hlevel

omit hg in
theorem upperBound_groups {inclusive : Bool} {upper : Option Expr}
    (h : grammar.upperBound (turns + 1) inclusive t = some (upper, r)) : ¬ begins "&&" r := by
  rw [upperBound] at h
  split at h
  · rename_i hends
    cases h
    intro h
    obtain ⟨joined, rest, rfl⟩ := exists_of_begins_and h
    rw [Bool.and_eq_true] at hends
    cases hends.2
  · obtain ⟨⟨bound, rest⟩, hb, h⟩ := Option.bind_eq_some_iff.mp h
    cases h
    exact (ih.rightOperand _ _ _ _ hb).2.2.2 (by decide)

end Step

theorem Steady.groups (hg : grammar.Steady) (turns : Nat) : grammar.Groups turns := by
  induction turns with
  | zero => constructor <;> intros <;> contradiction
  | succ turns ih =>
    exact {
      climb := fun _ _ _ _ _ => climb_groups ih
      rightOperand := fun _ _ _ _ => rightOperand_groups hg ih
      absorb := fun _ _ _ _ _ => absorb_groups hg ih
      upperBound := fun _ _ _ _ => upperBound_groups ih }

/-- An expression is read grouped and up to its end. -/
theorem Steady.expr_groups (hg : grammar.Steady) (h : grammar.expr t = some (e, r)) :
    e.grouped ∧ ¬ begins "&&" r := by
  obtain ⟨⟨left, rest⟩, hl, h⟩ := Option.bind_eq_some_iff.mp h
  obtain ⟨hgrouped, -, -, hend⟩ := (hg.groups _).climb 0 left rest _ _
    (hg.operand_grouped _ _ _ hl) (hg.operand_sealed _ _ _ hl) h
  exact ⟨hgrouped, hend (Nat.zero_le _)⟩

theorem Steady.expr_takes (hg : grammar.Steady) (h : grammar.expr t = some (e, r)) :
    r.length < t.length := by
  obtain ⟨⟨left, rest⟩, hl, h⟩ := Option.bind_eq_some_iff.mp h
  exact Nat.lt_of_le_of_lt ((hg.takes _).climb _ _ _ _ _ h) (hg.operand_takes _ _ _ hl)

theorem Steady.argument_takes (hg : grammar.Steady) {args : List Expr}
    (h : grammar.argument t = some (args, r)) : r.length < t.length := by
  rcases argument_cases h with ⟨-, rfl⟩ | ⟨arg, -, harg⟩
  · exact Nat.lt_succ_self _
  · exact Nat.lt_of_succ_lt (hg.expr_takes harg)

theorem Steady.argument_grouped (hg : grammar.Steady) {args : List Expr}
    (h : grammar.argument t = some (args, r)) : Expr.allGrouped args := by
  rcases argument_cases h with ⟨rfl, -⟩ | ⟨arg, rfl, harg⟩
  · rfl
  · simpa [Expr.allGrouped] using (hg.expr_groups harg).1

end Grammar

end CopySynth.Code
