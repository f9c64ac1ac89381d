import CopySynth.Proofs.Continuation

/-!
# Operands of comparisons

What extends a left operand to an expression whose operators at the left edge bind tighter than a
comparison is absorbed by a right operand, too, whatever may follow it.
-/

namespace CopySynth.Code.Grammar

variable {grammar : Grammar} {s t r : List Token} {d e : Nat} {level : Level} {left whole : Expr}

theorem tight_of_climb (h : grammar.climb d level left t = some (whole, r)) (ht : whole.tight) :
    left.tight := by
  induction d generalizing left t with
  | zero => cases h
  | succ d ih =>
    rcases climb_cases h with ⟨rfl, rfl, -⟩ | ⟨-, ⟨op, rest, right, rest', -, -, -, h⟩ |
      ⟨inclusive, rest, upper, rest', -, -, -, h⟩ | ⟨rest, target, rest', -, -, -, h⟩⟩
    · exact ht
    · exact (Bool.and_eq_true_iff.mp (ih h)).2
    · cases ih h
    · exact (ih h :)

theorem absorb_first {next : Level} {mid : Expr} {t' : List Token} {read : Expr × List Token}
    (hn : nextLevel t = next) (hl : level < next)
    (hc : grammar.climb d next left t = some (mid, t')) (hlt : t'.length < t.length)
    (h : grammar.absorb d level mid t' = some read) :
    grammar.absorb (d + 1) level left t = some read := by
  rw [absorb, hn, if_pos (.inl hl), hc]
  exact (if_neg (Nat.ne_of_lt hlt)).trans h

section

variable (hg : grammar.Lawful)
include hg

theorem Lawful.continues (hs : Boundary s) (h : d ≤ e) : Continues s grammar grammar d e :=
  (hg.carries s hs).continues hs hg.steady h

theorem Lawful.climb_mono (h : d ≤ e) {read : Expr × List Token}
    (hc : grammar.climb d level left t = some read) :
    grammar.climb e level left t = some read := by
  have := ((hg.continues .nothing h).climb level left t).eq _ hc (.inl (.inr rfl))
  simpa [before] using this

/-- An operand that is extended by all operators can be extended by those of a level first. -/
theorem Lawful.climb_resume (hl : Level.range < level)
    (h : grammar.climb d 0 left t = some (whole, r)) :
    ∃ mid t', grammar.climb d level left t = some (mid, t') ∧
      grammar.climb d 0 mid t' = some (whole, r) := by
  induction d generalizing left t with
  | zero => cases h
  | succ d ih =>
    have hw := h
    rw [climb.eq_def] at h ⊢
    dsimp only at h ⊢
    split at h
    · rename_i hr
      rw [if_pos hr]
      exact ⟨left, t, rfl, hw⟩
    rename_i hr
    rw [if_neg hr]
    cases ho : BinaryOp.read? t with
    | some read =>
      obtain ⟨op, rest⟩ := read
      rw [ho] at h
      dsimp only at h ⊢
      by_cases hlt : op.level < level
      · rw [if_pos hlt]
        exact ⟨left, t, rfl, hw⟩
      rw [if_neg hlt]
      rw [if_neg (Nat.not_lt_zero _)] at h
      split at h
      · cases h
      rename_i hc
      rw [if_neg hc]
      obtain ⟨⟨right, rest'⟩, hright, h⟩ := Option.bind_eq_some_iff.mp h
      obtain ⟨mid, t', hm, hrest⟩ := ih h
      exact ⟨mid, t', by rw [hright]; exact hm, hg.climb_mono (Nat.le_succ d) hrest⟩
    | none =>
      rw [ho] at h
      dsimp only at h ⊢
      rw [if_neg fun h => absurd h.1 (Nat.not_le.mpr hl)]
      by_cases has : ∃ rest, t = .word "as" :: rest
      · obtain ⟨rest, rfl⟩ := has
        rw [if_neg fun h => by cases h.2] at h
        obtain ⟨⟨target, rest'⟩, ht, h⟩ := Option.bind_eq_some_iff.mp h
        split at h
        · cases h
        rename_i hc
        obtain ⟨mid, t', hm, hrest⟩ := ih h
        refine ⟨mid, t', ?_, hg.climb_mono (Nat.le_succ d) hrest⟩
        show (grammar.type rest).bind _ = _
        rw [ht]
        exact (if_neg hc).trans hm
      · split
        · exact (has ⟨_, rfl⟩).elim
        · exact ⟨left, t, rfl, hw⟩

/-- What extends a left operand up to a tight expression is also absorbed by a right operand of a
comparison. -/
theorem Lawful.absorb_of_climb (h : grammar.climb d 0 left t = some (whole, [])) (ht : whole.tight) :
    grammar.absorb (d + 1) Level.compare left t = some (whole, []) := by
  induction d generalizing left t with
  | zero => cases h
  | succ d ih =>
    rcases climb_cases h with ⟨rfl, rfl, -⟩ | ⟨hrange, ⟨op, rest, right, rest', ho, -, hright, h'⟩ |
      ⟨inclusive, rest, upper, rest', -, -, -, h'⟩ | ⟨rest, target, rest', rfl, htarget, hc, h'⟩⟩
    · rw [absorb, nextLevel_nil]
      rfl
    · have hop : Level.compare < op.level := by
        have := tight_of_climb h' ht
        simp only [Expr.tight, Bool.and_eq_true, decide_eq_true_eq] at this
        exact this.1
      obtain ⟨mid, t', hmid, hrest⟩ := hg.climb_resume (Nat.lt_trans (by decide) hop) h'
      have hfirst : grammar.climb (d + 1) op.level left t = some (mid, t') := by
        rw [climb_operator ho, if_neg (by simp [hrange]), if_neg (Nat.lt_irrefl _),
          if_neg fun h => Nat.ne_of_gt hop h.1, hright]
        exact hmid
      refine absorb_first (nextLevel_of_read? ho) hop hfirst ?_ (ih hrest)
      have := (hg.steady.takes d).rightOperand _ _ _ _ hright
      have := (hg.steady.takes d).climb _ _ _ _ _ hmid
      have := read?_length_lt ho
      omega
    · cases tight_of_climb h' ht
    · obtain ⟨mid, t', hmid, hrest⟩ := hg.climb_resume (show Level.range < Level.cast by decide) h'
      have hfirst : grammar.climb (d + 1) Level.cast left (.word "as" :: rest) =
          some (mid, t') := by
        rw [climb_cast, if_neg (by simp [hrange]), htarget]
        exact (if_neg (by simp [hc])).trans hmid
      refine absorb_first rfl (show Level.compare < Level.cast by decide) hfirst ?_ (ih hrest)
      have := hg.steady.type_takes _ _ _ htarget
      have := (hg.steady.takes d).climb _ _ _ _ _ hmid
      simp only [List.length_cons]
      omega

/-- A tight expression is one operand of a comparison, whatever may follow it. -/
theorem Lawful.operand_append (hs : Boundary s) (h : grammar.expr t = some (whole, []))
    (ht : whole.tight) (hc : atEnd s ∨ whole.closed) (hd : turnsFor t ≤ d) :
    grammar.rightOperand d Level.compare (t ++ s) = some (whole, s) := by
  obtain ⟨⟨left, rest⟩, hl, hclimb⟩ := Option.bind_eq_some_iff.mp h
  have hright : grammar.rightOperand (turnsFor rest + 2) Level.compare t = some (whole, []) := by
    rw [rightOperand, hl]
    exact hg.absorb_of_climb hclimb ht
  have hturns : turnsFor rest + 2 ≤ d := by
    have := hg.steady.operand_takes _ _ _ hl
    unfold turnsFor at *
    omega
  have := ((hg.continues hs hturns).rightOperand Level.compare t).eq _ hright
    (hc.imp .inr fun hc => ⟨by decide, hc⟩)
  simpa [before] using this

end

end CopySynth.Code.Grammar
