import CopySynth.Proofs.Lookahead

/-!
# What operators read

The readers of operators over any grammar: which operator stands next, what a left operand is
extended by, and that each turn takes tokens.
-/

namespace CopySynth.Code

variable {s t r : List Token}

theorem after_nil {text : String} (h : text.toList ≠ []) : after text [] = none := by
  obtain ⟨c, chars, h⟩ := List.exists_cons_of_ne_nil h
  rw [after, h]
  cases chars <;> rfl

theorem begins_nil {text : String} (h : text.toList ≠ []) : begins text [] = false := by
  rw [begins, after_nil h]; rfl

theorem read?_nil : BinaryOp.read? [] = none := by decide

theorem nextLevel_nil : nextLevel [] = 0 := by decide

theorem read?_conjunct {joined : Bool} :
    BinaryOp.read? (.symbol '&' true :: .symbol '&' joined :: t) = some (.and, t) := rfl

theorem read?_ampersand : BinaryOp.read? [.symbol '&' true] = some (.bitAnd, []) := by decide

theorem read?_ampersands :
    BinaryOp.read? ([.symbol '&' true] ++ .symbol '&' true :: t) = some (.and, t) := read?_conjunct

theorem nextLevel_conjunct {joined : Bool} :
    nextLevel (.symbol '&' true :: .symbol '&' joined :: t) = BinaryOp.and.level := by
  rw [nextLevel, read?_conjunct]

theorem nextLevel_ampersand : nextLevel [.symbol '&' true] = BinaryOp.bitAnd.level := by decide

theorem nextLevel_ampersands :
    nextLevel ([.symbol '&' true] ++ .symbol '&' true :: t) = BinaryOp.and.level :=
  nextLevel_conjunct

theorem read?_word {text : String} : BinaryOp.read? (.word text :: t) = none := rfl

theorem nextLevel_of_read? {op : BinaryOp} (h : BinaryOp.read? t = some (op, r)) :
    nextLevel t = op.level := by
  rw [nextLevel, h]

/-! ## What symbols are made of -/

/-- A symbol begins with its first character, joined to the next one if there is one. -/
theorem afterChars_cons_eq_some_iff {c : Char} {chars : List Char} :
    afterChars (c :: chars) t = some r ↔ ∃ joined rest, t = .symbol c joined :: rest ∧
      (joined ∨ chars = []) ∧ afterChars chars rest = some r := by
  cases t with
  | nil => cases chars <;> simp [afterChars]
  | cons token t =>
    cases token with
    | symbol d joined =>
      have hc : d = c ↔ c = d := eq_comm
      cases chars with
      | nil => simp [afterChars, hc]
      | cons c' chars => cases joined <;> simp [afterChars, hc, and_assoc]
    | _ => cases chars <;> simp [afterChars]

theorem afterChars_length_lt {c : Char} {chars : List Char}
    (h : afterChars (c :: chars) t = some r) : r.length < t.length := by
  induction chars generalizing c t with
  | nil =>
    obtain ⟨joined, rest, rfl, -, h⟩ := afterChars_cons_eq_some_iff.mp h
    cases h
    exact Nat.lt_succ_self _
  | cons c' chars ih =>
    obtain ⟨joined, rest, rfl, -, h⟩ := afterChars_cons_eq_some_iff.mp h
    exact Nat.lt_succ_of_lt (ih h)

theorem after_length_lt {text : String} (hne : text.toList ≠ []) (h : after text t = some r) :
    r.length < t.length := by
  obtain ⟨c, chars, hc⟩ := List.exists_cons_of_ne_nil hne
  rw [after, hc] at h
  exact afterChars_length_lt h

theorem after_of_read? {op : BinaryOp} (h : BinaryOp.read? t = some (op, r)) :
    after op.text t = some r := by
  unfold BinaryOp.read? at h
  split at h
  · cases h
  obtain ⟨op', -, h⟩ := List.exists_of_findSome?_eq_some h
  obtain ⟨rest, ha, h⟩ := Option.map_eq_some_iff.mp h
  cases h
  exact ha

theorem read?_length_lt {op : BinaryOp} (h : BinaryOp.read? t = some (op, r)) :
    r.length < t.length :=
  after_length_lt (by cases op <;> decide) (after_of_read? h)

theorem rangeSign_length_lt {inclusive : Bool} (h : rangeSign t = some (inclusive, r)) :
    r.length < t.length := by
  unfold rangeSign at h
  split at h
  · rename_i ha
    cases h
    exact after_length_lt (by decide) ha
  · split at h
    · cases h
    · obtain ⟨found, ha, h⟩ := Option.map_eq_some_iff.mp h
      cases h
      exact after_length_lt (by decide) ha

/-- What begins with the sign of a conjunction begins with its two tokens. -/
theorem exists_of_begins_and (h : begins "&&" t) :
    ∃ joined rest, t = .symbol '&' true :: .symbol '&' joined :: rest := by
  obtain ⟨r, hr⟩ := Option.isSome_iff_exists.mp h
  have hr : afterChars ['&', '&'] t = some r := hr
  obtain ⟨joined, rest, rfl, hj, hrest⟩ := afterChars_cons_eq_some_iff.mp hr
  cases hj.resolve_right (List.cons_ne_nil _ _)
  obtain ⟨joined, rest, rfl, -, -⟩ := afterChars_cons_eq_some_iff.mp hrest
  exact ⟨joined, rest, rfl⟩

theorem begins_and_of_read? (h : BinaryOp.read? t = some (.and, r)) : begins "&&" t :=
  Option.isSome_iff_exists.mpr ⟨r, after_of_read? h⟩

namespace Grammar

variable {grammar wider : Grammar} {turns d e : Nat} {level : Level} {left whole : Expr}

/-! ## What extends an operand -/

theorem climb_of_isRange (h : left.isRange) :
    grammar.climb (turns + 1) level left t = some (left, t) := by
  rw [climb.eq_def]
  exact if_pos h

theorem climb_operator {op : BinaryOp} {rest : List Token}
    (h : BinaryOp.read? t = some (op, rest)) :
    grammar.climb (turns + 1) level left t =
      if left.isRange then some (left, t)
      else if op.level < level then some (left, t)
      else if op.level = Level.compare ∧ left.isComparison then none
      else (grammar.rightOperand turns op.level rest).bind fun (right, rest) =>
        grammar.climb turns level (.binary op left right) rest := by
  rw [climb.eq_def]
  dsimp only
  rw [h]
  rfl

theorem climb_cast {rest : List Token} :
    grammar.climb (turns + 1) level left (.word "as" :: rest) =
      if left.isRange then some (left, .word "as" :: rest)
      else (grammar.type rest).bind fun (target, rest) =>
        if refusesCast rest then none else grammar.climb turns level (.cast left target) rest := by
  have hb : begins ".." (.word "as" :: rest) = false := rfl
  rw [climb.eq_def]
  dsimp only
  rw [read?_word, hb, if_neg (c := _ ∧ _) (by simp)]
  rfl

theorem climb_nil {read : Expr × List Token} (h : grammar.climb turns level left [] = some read) :
    read = (left, []) := by
  cases turns with
  | zero => cases h
  | succ turns =>
    rw [climb, read?_nil] at h
    · split at h <;> simp_all [begins_nil]
    · simp

theorem absorb_nil {right : Expr} {read : Expr × List Token}
    (h : grammar.absorb turns level right [] = some read) : read = (right, []) := by
  cases turns with
  | zero => cases h
  | succ turns =>
    rw [absorb, nextLevel_nil, if_neg (by simp [Level.assign])] at h
    cases h
    rfl

/-- What a left operand has been extended by: by nothing, because no operator of the level follows it
or because it is a range, by an operator with its right operand, a range or a conversion. -/
theorem climb_cases (h : grammar.climb (turns + 1) level left t = some (whole, r)) :
    (whole = left ∧ r = t ∧ (left.isRange = false →
      ∀ op rest, BinaryOp.read? t = some (op, rest) → op.level < level)) ∨
    left.isRange = false ∧
      ((∃ op rest right rest', BinaryOp.read? t = some (op, rest) ∧ level ≤ op.level ∧
        grammar.rightOperand turns op.level rest = some (right, rest') ∧
        grammar.climb turns level (.binary op left right) rest' = some (whole, r)) ∨
      (∃ inclusive rest upper rest', level ≤ Level.range ∧ rangeSign t = some (inclusive, rest) ∧
        grammar.upperBound turns inclusive rest = some (upper, rest') ∧
        grammar.climb turns level (.range inclusive (some left) upper) rest' = some (whole, r)) ∨
      (∃ rest target rest', t = .word "as" :: rest ∧ grammar.type rest = some (target, rest') ∧
        refusesCast rest' = false ∧
        grammar.climb turns level (.cast left target) rest' = some (whole, r))) := by
  rw [climb.eq_def] at h
  dsimp only at h
  split at h
  · rename_i hrange
    cases h
    exact .inl ⟨rfl, rfl, fun hno => by rw [hno] at hrange; cases hrange⟩
  rename_i hrange
  rw [Bool.not_eq_true] at hrange
  split at h
  · rename_i op rest ho
    split at h
    · rename_i hl
      cases h
      refine .inl ⟨rfl, rfl, fun _ op' rest' ho' => ?_⟩
      cases ho.symm.trans ho'
      exact hl
    rename_i hl
    split at h
    · cases h
    obtain ⟨⟨right, rest'⟩, hr, h⟩ := Option.bind_eq_some_iff.mp h
    exact .inr ⟨hrange, .inl ⟨op, rest, right, rest', ho, Nat.not_lt.mp hl, hr, h⟩⟩
  rename_i ho
  split at h
  · rename_i hl
    obtain ⟨⟨inclusive, rest⟩, hi, h⟩ := Option.bind_eq_some_iff.mp h
    obtain ⟨⟨upper, rest'⟩, hu, h⟩ := Option.bind_eq_some_iff.mp h
    exact .inr ⟨hrange, .inr (.inl ⟨inclusive, rest, upper, rest', hl.1, hi, hu, h⟩)⟩
  split at h
  · obtain ⟨⟨target, rest'⟩, hr, h⟩ := Option.bind_eq_some_iff.mp h
    dsimp only at h
    split at h
    · cases h
    · rename_i hc
      rw [Bool.not_eq_true] at hc
      exact .inr ⟨hrange, .inr (.inr ⟨_, target, rest', rfl, hr, hc, h⟩)⟩
  · cases h
    refine .inl ⟨rfl, rfl, fun _ op rest ho' => ?_⟩
    cases ho.symm.trans ho'

/-- The brackets of a call hold nothing or one expression. -/
theorem argument_cases {args : List Expr} (h : grammar.argument t = some (args, r)) :
    (args = [] ∧ t = .closing .round :: r) ∨
      ∃ arg, args = [arg] ∧ grammar.expr t = some (arg, .closing .round :: r) := by
  unfold argument at h
  split at h
  · cases h
    exact .inl ⟨rfl, rfl⟩
  · obtain ⟨⟨arg, rest⟩, ha, h⟩ := Option.bind_eq_some_iff.mp h
    dsimp only at h
    split at h
    · cases h
      exact .inr ⟨arg, rfl, ha⟩
    · cases h

/-! ## Readers take tokens -/

/-- The readers leave no more tokens than they find. -/
structure Takes (grammar : Grammar) (turns : Nat) : Prop where
  climb : ∀ level left t whole r, grammar.climb turns level left t = some (whole, r) →
    r.length ≤ t.length
  rightOperand : ∀ level t right r, grammar.rightOperand turns level t = some (right, r) →
    r.length < t.length
  absorb : ∀ level right t whole r, grammar.absorb turns level right t = some (whole, r) →
    r.length ≤ t.length
  upperBound : ∀ inclusive t upper r, grammar.upperBound turns inclusive t = some (upper, r) →
    r.length ≤ t.length

theorem Steady.takes (hg : grammar.Steady) (turns : Nat) : grammar.Takes turns := by
  induction turns with
  | zero => constructor <;> intros <;> contradiction
  | succ turns ih =>
    refine ⟨?_, ?_, ?_, ?_⟩
    · intro level left t whole r h
      rcases climb_cases h with ⟨-, rfl, -⟩ | ⟨-, ⟨op, rest, right, rest', ho, -, hr, h⟩ |
        ⟨inclusive, rest, upper, rest', -, hi, hu, h⟩ | ⟨rest, target, rest', rfl, hr, -, h⟩⟩
      · exact Nat.le_refl _
      · have := read?_length_lt ho
        have := ih.rightOperand _ _ _ _ hr
        have := ih.climb _ _ _ _ _ h
        omega
      · have := rangeSign_length_lt hi
        have := ih.upperBound _ _ _ _ hu
        have := ih.climb _ _ _ _ _ h
        omega
      · have := hg.type_takes _ _ _ hr
        have := ih.climb _ _ _ _ _ h
        simp only [List.length_cons]
        omega
    · intro level t right r h
      rw [Grammar.rightOperand] at h
      obtain ⟨⟨first, rest⟩, hf, h⟩ := Option.bind_eq_some_iff.mp h
      exact Nat.lt_of_le_of_lt (ih.absorb _ _ _ _ _ h) (hg.operand_takes _ _ _ hf)
    · intro level right t whole r h
      rw [Grammar.absorb] at h
      dsimp only at h
      split at h
      · obtain ⟨⟨wider, rest⟩, hw, h⟩ := Option.bind_eq_some_iff.mp h
        have hle := ih.climb _ _ _ _ _ hw
        dsimp only at h
        split at h
        · cases h
          exact hle
        · exact Nat.le_trans (ih.absorb _ _ _ _ _ h) hle
      · cases h
        exact Nat.le_refl _
    · intro inclusive t upper r h
      rw [Grammar.upperBound] at h
      split at h
      · cases h
        exact Nat.le_refl _
      · obtain ⟨⟨bound, rest⟩, hb, h⟩ := Option.bind_eq_some_iff.mp h
        cases h
        exact Nat.le_of_lt (ih.rightOperand _ _ _ _ hb)

/-- A left operand that takes no tokens is left as it is. -/
theorem Steady.climb_of_length (hg : grammar.Steady)
    (h : grammar.climb turns level left t = some (whole, r)) (hl : r.length = t.length) : r = t := by
  cases turns with
  | zero => cases h
  | succ turns =>
    rcases climb_cases h with ⟨-, rfl, -⟩ | ⟨-, ⟨op, rest, right, rest', ho, -, hr, h⟩ |
      ⟨inclusive, rest, upper, rest', -, hi, hu, h⟩ | ⟨rest, target, rest', rfl, hr, -, h⟩⟩
    · rfl
    · have := (hg.takes turns).rightOperand _ _ _ _ hr
      have := (hg.takes turns).climb _ _ _ _ _ h
      have := read?_length_lt ho
      omega
    · have := (hg.takes turns).upperBound _ _ _ _ hu
      have := (hg.takes turns).climb _ _ _ _ _ h
      have := rangeSign_length_lt hi
      omega
    · have := hg.type_takes _ _ _ hr
      have := (hg.takes turns).climb _ _ _ _ _ h
      simp only [List.length_cons] at hl
      omega

/-! ## Few tokens -/

/-- Two grammars read the same in fewer than so many tokens. -/
structure Agrees (n : Nat) (grammar wider : Grammar) : Prop where
  operand : ∀ t, t.length < n → grammar.operand t = wider.operand t
  type : ∀ t, t.length < n → grammar.type t = wider.type t

/-- The readers of operators read the same in fewer than so many tokens. -/
structure ReadAlike (n : Nat) (grammar wider : Grammar) (turns : Nat) : Prop where
  climb : ∀ level left t, t.length < n →
    grammar.climb turns level left t = wider.climb turns level left t
  rightOperand : ∀ level t, t.length < n →
    grammar.rightOperand turns level t = wider.rightOperand turns level t
  absorb : ∀ level right t, t.length < n →
    grammar.absorb turns level right t = wider.absorb turns level right t
  upperBound : ∀ inclusive t, t.length < n →
    grammar.upperBound turns inclusive t = wider.upperBound turns inclusive t

section Agrees

variable {n : Nat} (hg : grammar.Steady) (h : Agrees n grammar wider)
include hg h

theorem Agrees.readAlike (turns : Nat) : ReadAlike n grammar wider turns := by
  induction turns with
  | zero => constructor <;> intros <;> rfl
  | succ turns ih =>
    refine ⟨fun level left t hn => ?_, fun level t hn => ?_, fun level right t hn => ?_,
      fun inclusive t hn => ?_⟩
    · rw [climb.eq_def, climb.eq_def]
      dsimp only
      split
      · rfl
      cases ho : BinaryOp.read? t with
      | some read =>
        obtain ⟨op, rest⟩ := read
        have hrest := read?_length_lt ho
        dsimp only
        split
        · rfl
        split
        · rfl
        rw [← ih.rightOperand op.level rest (by omega)]
        refine Option.bind_congr fun read hread => ?_
        have := (hg.takes turns).rightOperand _ _ _ _ hread
        exact ih.climb _ _ _ (by omega)
      | none =>
        dsimp only
        split
        · refine Option.bind_congr fun sign hsign => ?_
          have := rangeSign_length_lt hsign
          rw [← ih.upperBound sign.1 sign.2 (by omega)]
          refine Option.bind_congr fun read hread => ?_
          have := (hg.takes turns).upperBound _ _ _ _ hread
          exact ih.climb _ _ _ (by omega)
        · split
          · rename_i rest _
            rw [List.length_cons] at hn
            rw [← h.type rest (by omega)]
            refine Option.bind_congr fun read hread => ?_
            have := hg.type_takes _ _ _ hread
            split
            · rfl
            · exact ih.climb _ _ _ (by omega)
          · rfl
    · rw [Grammar.rightOperand, Grammar.rightOperand, ← h.operand t hn]
      refine Option.bind_congr fun read hread => ?_
      have := hg.operand_takes _ _ _ hread
      exact ih.absorb _ _ _ (by omega)
    · rw [Grammar.absorb, Grammar.absorb]
      dsimp only
      split
      · rw [← ih.climb _ _ t hn]
        refine Option.bind_congr fun read hread => ?_
        have := (hg.takes turns).climb _ _ _ _ _ hread
        split
        · rfl
        · exact ih.absorb _ _ _ (by omega)
      · rfl
    · rw [Grammar.upperBound, Grammar.upperBound]
      split
      · rfl
      · rw [← ih.rightOperand _ t hn]

theorem Agrees.expr (hn : t.length < n) : grammar.expr t = wider.expr t := by
  rw [Grammar.expr, Grammar.expr, ← h.operand t hn]
  refine Option.bind_congr fun read hread => ?_
  have := hg.operand_takes _ _ _ hread
  exact (h.readAlike hg _).climb _ _ _ (by omega)

theorem Agrees.argument (hn : t.length < n) : grammar.argument t = wider.argument t := by
  unfold Grammar.argument
  split
  · rfl
  · rw [h.expr hg hn]

end Agrees

end Grammar

end CopySynth.Code
