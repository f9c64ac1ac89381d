import CopySynth.Proofs.Precedence

/-!
# Reading on in front of a boundary

A reader that has read a piece of code reads the same piece when a boundary follows. The readers of
operators do so as far as the operands do: when some tokens are left, when a bracket follows, or when
the expression is closed and no operator as loose as a conjunction is asked for.
-/

namespace CopySynth.Code

variable {α β : Type} {s t : List Token}

/-- What is read and admitted is read again, with more behind its rest. -/
structure Kept (grow : α → α) (admits : α → Prop) (o o' : Option α) : Prop where
  eq : ∀ x, o = some x → admits x → o' = some (grow x)

/-- Whatever is read is read again when these tokens follow. -/
abbrev Firm (s : List Token) (o o' : Option (α × List Token)) : Prop :=
  Kept (before s) (fun _ => True) o o'

/-- What is read is read again when these tokens follow and its end can be told from them. -/
abbrev Loose (s : List Token) (o o' : Option (α × List Token)) : Prop :=
  Kept (before s) (fun read => Ends read.2 s) o o'

/-- Loose, unless the expression is closed and nothing looser than these levels is asked for. -/
abbrev Guarded (s : List Token) (tight : Prop) (o o' : Option (Expr × List Token)) : Prop :=
  Kept (before s) (fun read => Ends read.2 s ∨ (tight ∧ read.1.closed)) o o'

namespace Kept

variable {grow : α → α} {admits : α → Prop} {grow' : β → β} {admits' : β → Prop}
  {o o' : Option α} {f f' : α → Option β}

theorem of_none : Kept grow admits none o' := ⟨fun _ h => by cases h⟩

theorem of_some {x : α} : Kept grow admits (some x) (some (grow x)) := ⟨by rintro _ ⟨⟩ -; rfl⟩

theorem of_map (h : o' = o.map grow) : Kept grow admits o o' := ⟨by rintro x rfl -; exact h⟩

theorem bind (h : Kept grow admits o o')
    (hadmits : ∀ x y, f x = some y → admits' y → admits x)
    (hf : ∀ x, admits x → Kept grow' admits' (f x) (f' (grow x))) :
    Kept grow' admits' (o >>= f) (o' >>= f') := by
  refine ⟨fun y hy ha => ?_⟩
  obtain ⟨x, rfl, hx⟩ := Option.bind_eq_some_iff.mp hy
  have hax := hadmits x y hx ha
  rw [h.eq x rfl hax]
  exact (hf x hax).eq y hx ha

end Kept

section Bind

variable {grow : β → β} {admits : β → Prop}

theorem Firm.bind {o o' : Option (α × List Token)} {f f' : α × List Token → Option β}
    (h : Firm s o o') (hf : ∀ x r, Kept grow admits (f (x, r)) (f' (x, r ++ s))) :
    Kept grow admits (o >>= f) (o' >>= f') :=
  Kept.bind h (fun _ _ _ _ => trivial) fun x _ => hf x.1 x.2

theorem Loose.bind {o o' : Option (α × List Token)} {f f' : α × List Token → Option β}
    (h : Loose s o o') (hnil : ∀ x y, f (x, []) = some y → admits y → atEnd s)
    (hf : ∀ x r, Ends r s → Kept grow admits (f (x, r)) (f' (x, r ++ s))) :
    Kept grow admits (o >>= f) (o' >>= f') := by
  refine Kept.bind h ?_ fun x hx => hf x.1 x.2 hx
  rintro ⟨x, _ | ⟨token, r⟩⟩ y hy ha
  · exact .inr (hnil x y hy ha)
  · exact .of_cons

/-- An expression at the end of all tokens is kept when what is made of it is. -/
theorem Guarded.bind {tight : Prop} {o o' : Option (Expr × List Token)}
    {f f' : Expr × List Token → Option β} (h : Guarded s tight o o')
    (hnil : ∀ x y, f (x, []) = some y → admits y → atEnd s ∨ (tight ∧ x.closed))
    (hf : ∀ x r, Ends r s ∨ (tight ∧ x.closed) →
      Kept grow admits (f (x, r)) (f' (x, r ++ s))) :
    Kept grow admits (o >>= f) (o' >>= f') := by
  refine Kept.bind h ?_ fun x hx => hf x.1 x.2 hx
  rintro ⟨x, _ | ⟨token, r⟩⟩ y hy ha
  · exact (hnil x y hy ha).imp .inr id
  · exact .inl .of_cons

end Bind

namespace Grammar

variable {grammar wider : Grammar} {d e : Nat}

/-- The readers of one grammar keep what they read in another when these tokens follow, also with
more turns. -/
structure Continues (s : List Token) (grammar wider : Grammar) (d e : Nat) : Prop where
  climb : ∀ level left t, Guarded s (BinaryOp.and.level < level)
    (grammar.climb d level left t) (wider.climb e level left (t ++ s))
  rightOperand : ∀ level t, Guarded s (BinaryOp.and.level ≤ level)
    (grammar.rightOperand d level t) (wider.rightOperand e level (t ++ s))
  absorb : ∀ level right t, Guarded s (BinaryOp.and.level ≤ level)
    (grammar.absorb d level right t) (wider.absorb e level right (t ++ s))
  upperBound : ∀ inclusive t,
    Loose s (grammar.upperBound d inclusive t) (wider.upperBound e inclusive (t ++ s))

/-- An ampersand that nothing follows has no right operand. -/
theorem Steady.climb_ampersand (hg : grammar.Steady) {level : Level} {left : Expr}
    {read : Expr × List Token} (h : grammar.climb d level left [.symbol '&' true] = some read) :
    read = (left, [.symbol '&' true]) ∧ (left.isRange ∨ BinaryOp.bitAnd.level < level) := by
  cases d with
  | zero => cases h
  | succ d =>
    obtain ⟨whole, r⟩ := read
    rcases climb_cases h with ⟨rfl, rfl, hstop⟩ | ⟨-, ⟨op, rest, right, rest', ho, -, hr, -⟩ |
      ⟨_, _, _, _, -, hi, -⟩ | ⟨_, _, _, heq, -⟩⟩
    · refine ⟨rfl, (Bool.eq_false_or_eq_true whole.isRange).imp id fun hrange => ?_⟩
      exact hstop hrange _ _ read?_ampersand
    · cases read?_ampersand.symm.trans ho
      exact absurd ((hg.takes d).rightOperand _ _ _ _ hr) (Nat.not_lt_zero _)
    · cases hi
    · cases heq

theorem Carries.guarded (h : Carries s grammar wider) (t : List Token) :
    Guarded s True (grammar.operand t) (wider.operand (t ++ s)) :=
  ⟨fun _ hx ha => h.operand _ _ _ hx (ha.imp id And.right)⟩

theorem Carries.firm (h : Carries s grammar wider) (t : List Token) :
    Firm s (grammar.type t) (wider.type (t ++ s)) :=
  ⟨fun _ hx _ => h.type _ _ _ hx⟩

section Step

variable (hs : Boundary s) (hg : grammar.Steady) (hc : Carries s grammar wider)
  (ih : Continues s grammar wider d e)
include ih

include hc in
theorem rightOperand_step (level : Level) (t : List Token) : Guarded s (BinaryOp.and.level ≤ level)
    (grammar.rightOperand (d + 1) level t) (wider.rightOperand (e + 1) level (t ++ s)) := by
  rw [rightOperand, rightOperand]
  refine (hc.guarded t).bind (fun x y h ha => ?_) fun right r _ => ih.absorb level right r
  obtain rfl := absorb_nil h
  exact ha.imp Ends.atEnd fun h => ⟨trivial, h.2⟩

include hs

include hg in
theorem upperBound_step (inclusive : Bool) (t : List Token) :
    Loose s (grammar.upperBound (d + 1) inclusive t)
      (wider.upperBound (e + 1) inclusive (t ++ s)) := by
  rw [upperBound, upperBound]
  by_cases hends : Ends t s
  · rw [hs.endsRange_append hends]
    split
    · exact .of_some
    · refine (ih.rightOperand Level.range t).bind (fun x y h ha => ?_) fun _ _ _ => .of_some
      cases h
      exact .inl ha.atEnd
  · obtain ⟨rfl, he⟩ := hends_cases hends
    split
    · refine ⟨fun x hx ha => ?_⟩
      cases hx
      exact (hends ha).elim
    · refine ⟨fun x hx _ => ?_⟩
      obtain ⟨⟨upper, r⟩, hu, -⟩ := Option.bind_eq_some_iff.mp hx
      exact absurd ((hg.takes d).rightOperand _ _ _ _ hu) (Nat.not_lt_zero _)

include hc in
/-- What extends a left operand is kept if the next operator is the same when more follows. -/
theorem climb_of_read {level : Level} (left : Expr) (hends : Ends t s)
    (hr : BinaryOp.read? (t ++ s) = (BinaryOp.read? t).map (before s)) :
    Guarded s (BinaryOp.and.level < level) (grammar.climb (d + 1) level left t)
      (wider.climb (e + 1) level left (t ++ s)) := by
  rw [climb.eq_def, climb.eq_def]
  dsimp only
  rw [hr]
  split
  · exact .of_some
  cases BinaryOp.read? t with
  | some read =>
    obtain ⟨op, rest⟩ := read
    dsimp only [Option.map_some, before]
    split
    · exact .of_some
    split
    · exact .of_none
    · rename_i hl _
      refine (ih.rightOperand op.level rest).bind (fun x y h ha => ?_)
        fun right r _ => ih.climb level (.binary op left right) r
      obtain rfl := climb_nil h
      exact ha.imp Ends.atEnd fun h => ⟨Nat.le_trans (Nat.le_of_lt h.1) (Nat.le_of_not_lt hl), h.2⟩
  | none =>
    dsimp only [Option.map_none]
    rw [hs.begins_append (by decide), hs.rangeSign_append]
    split
    · refine Firm.bind (.of_map rfl) fun inclusive r => ?_
      refine (ih.upperBound inclusive r).bind (fun x y h ha => ?_)
        fun upper r _ => ih.climb level _ r
      obtain rfl := climb_nil h
      exact ha.elim Ends.atEnd fun h => by cases h.2
    · by_cases hw : ∃ rest, t = .word "as" :: rest
      · obtain ⟨rest, rfl⟩ := hw
        dsimp only [List.cons_append]
        refine (hc.firm rest).bind fun target r => ?_
        dsimp only
        rw [hs.refusesCast_append]
        split
        · exact .of_none
        · exact ih.climb level _ r
      · split
        · exact (hw ⟨_, rfl⟩).elim
        · split
          · rename_i heq
            obtain ⟨_, rfl, -⟩ := hs.append_eq_cons heq rfl
            exact (hw ⟨_, rfl⟩).elim
          · exact .of_some

include hg

include hc in
theorem climb_step (level : Level) (left : Expr) (t : List Token) :
    Guarded s (BinaryOp.and.level < level) (grammar.climb (d + 1) level left t)
      (wider.climb (e + 1) level left (t ++ s)) := by
  by_cases hends : Ends t s
  · by_cases ht : t ≠ [.symbol '&' true] ∨ atEnd s
    · exact climb_of_read hs hc ih left hends (hs.read?_append hends ht)
    · obtain ⟨rfl, he⟩ : t = [.symbol '&' true] ∧ ¬ atEnd s :=
        ⟨Decidable.of_not_not fun h => ht (.inl h), fun h => ht (.inr h)⟩
      obtain ⟨joined, rest, rfl⟩ := hs.exists_conjunct he
      refine ⟨fun x hx _ => ?_⟩
      obtain ⟨rfl, hstop⟩ := hg.climb_ampersand hx
      rw [climb_operator read?_ampersands]
      rcases hstop with hrange | hlevel
      · rw [if_pos hrange]
        rfl
      · rw [if_pos (Nat.lt_trans (by decide) hlevel), ite_self]
        rfl
  · obtain ⟨rfl, he⟩ := hends_cases hends
    obtain ⟨joined, rest, rfl⟩ := hs.exists_conjunct he
    refine ⟨fun x hx ha => ?_⟩
    obtain rfl := climb_nil hx
    have hl : BinaryOp.level .and < level := (ha.resolve_left fun h => he h.atEnd).1
    rw [List.nil_append, climb_operator read?_conjunct, if_pos hl]
    split <;> rfl

theorem absorb_step (level : Level) (right : Expr) (t : List Token) :
    Guarded s (BinaryOp.and.level ≤ level) (grammar.absorb (d + 1) level right t)
      (wider.absorb (e + 1) level right (t ++ s)) := by
  by_cases hends : Ends t s
  · by_cases ht : t ≠ [.symbol '&' true] ∨ atEnd s
    · rw [absorb, absorb, hs.nextLevel_append hends ht]
      dsimp only
      split
      · rename_i hn
        refine (ih.climb (nextLevel t) right t).bind (fun x y h ha => ?_) fun wider r _ => ?_
        · have hy : y = (x, []) := by
            dsimp only at h
            split at h
            · cases h; rfl
            · exact absorb_nil h
          subst hy
          refine ha.imp Ends.atEnd fun h => ⟨?_, h.2⟩
          have hand := h.1
          rcases hn with hn | ⟨h₁, h₂⟩
          · exact Nat.lt_of_le_of_lt hand hn
          · rw [h₁, h₂] at hand
            exact absurd hand (by decide)
        · simp only [List.length_append, Nat.add_right_cancel_iff]
          split
          · exact .of_some
          · exact ih.absorb level wider r
      · exact .of_some
    · obtain ⟨rfl, he⟩ : t = [.symbol '&' true] ∧ ¬ atEnd s :=
        ⟨Decidable.of_not_not fun h => ht (.inl h), fun h => ht (.inr h)⟩
      obtain ⟨joined, rest, rfl⟩ := hs.exists_conjunct he
      rw [absorb, absorb, nextLevel_ampersand, nextLevel_ampersands]
      dsimp only
      split
      · refine ⟨fun x hx _ => ?_⟩
        obtain ⟨read, hr, hx⟩ := Option.bind_eq_some_iff.mp hx
        -- the operand is a range, which takes nothing of a conjunction
        obtain ⟨rfl, hstop⟩ := hg.climb_ampersand hr
        have hrange := hstop.resolve_right (Nat.lt_irrefl _)
        have hkept := (ih.climb BinaryOp.bitAnd.level right _).eq _ hr (.inl .of_cons)
        cases hx
        cases e with
        | zero => cases hkept
        | succ e =>
          rw [climb_of_isRange hrange]
          split <;> simp [before]
      · rename_i hl
        have hl' : ¬ (level < BinaryOp.and.level ∨
            level = BinaryOp.and.level ∧ BinaryOp.and.level = Level.assign) := by
          rintro (h | ⟨-, h⟩)
          · exact hl (.inl (Nat.lt_trans h (by decide)))
          · exact absurd h (by decide)
        rw [if_neg hl']
        exact .of_some
  · obtain ⟨rfl, he⟩ := hends_cases hends
    obtain ⟨joined, rest, rfl⟩ := hs.exists_conjunct he
    refine ⟨fun x hx ha => ?_⟩
    obtain rfl := absorb_nil hx
    have hl := (ha.resolve_left fun h => he h.atEnd).1
    rw [List.nil_append, absorb, nextLevel_conjunct, if_neg]
    · rfl
    · rintro (h | ⟨rfl, h⟩)
      · exact absurd h (Nat.not_lt.mpr hl)
      · exact absurd h (by decide)

end Step

theorem Carries.continues (hs : Boundary s) (hg : grammar.Steady) (hc : Carries s grammar wider)
    (h : d ≤ e) : Continues s grammar wider d e := by
  induction d generalizing e with
  | zero => constructor <;> intros <;> exact .of_none
  | succ d ih =>
    obtain ⟨e, rfl⟩ : ∃ e', e = e' + 1 := ⟨e - 1, by omega⟩
    have ih := ih (Nat.le_of_succ_le_succ h)
    exact {
      climb := climb_step hs hg hc ih
      rightOperand := rightOperand_step hc ih
      absorb := absorb_step hs hg ih
      upperBound := upperBound_step hs hg ih }

/-- What one grammar reads as an expression another reads, too, when these tokens follow and a whole
expression can be told from them. -/
theorem Carries.expr (hs : Boundary s) (hg : grammar.Steady) (hc : Carries s grammar wider)
    {x : Expr} {r : List Token} (h : grammar.expr t = some (x, r)) (hr : Ends r s) :
    wider.expr (t ++ s) = some (x, r ++ s) := by
  obtain ⟨⟨left, rest⟩, hleft, h⟩ := Option.bind_eq_some_iff.mp h
  have hends : Ends rest s ∨ left.closed := by
    cases rest with
    | nil =>
      cases climb_nil h
      exact .inl (.inr hr.atEnd)
    | cons => exact .inl .of_cons
  have hwide : wider.operand (t ++ s) = some (left, rest ++ s) := hc.operand _ _ _ hleft hends
  have hturns : turnsFor rest ≤ turnsFor (rest ++ s) := by
    simp only [turnsFor, List.length_append]
    omega
  have hclimb := ((hc.continues hs hg hturns).climb 0 left rest).eq _ h (.inl hr)
  rw [Grammar.expr, hwide]
  exact hclimb

end Grammar

end CopySynth.Code
