import CopySynth.Proofs.Operands

/-!
# How tests are read

A test calls a method on a place or compares the value of a place with an operand. Behind a test
stands nothing, a closing bracket or the next test; whichever it is, the test is read as one operand
of a conjunction. Tests with conjunctions between them are read as the conjunction of all of them,
which groups to the left.
-/

namespace CopySynth.Code.Grammar

variable {grammar : Grammar} {d : Nat} {s r t : List Token} {word : String}
  {place value right left e : Expr}

/-! ## Places -/

/-- In front of these tokens the place is read, and then what extends it. -/
def Leads (grammar : Grammar) (place : Expr) (r : List Token) : Prop :=
  ∀ read, grammar.extend place r = some read → grammar.operand (place.tokens ++ r) = some read

/-- The tokens of a call behind the place it is made on. -/
def callTokens (word : String) (args : List Token) : List Token :=
  .symbol '.' false :: .word word :: Token.enclosed .round args

theorem tokens_send (place : Expr) (word : String) :
    (place.send word []).tokens = place.tokens ++ callTokens word [] := by
  simp [Expr.tokens, Expr.send, Expr.listTokens, Token.commaSeparated, callTokens]

theorem tokens_send_one (place arg : Expr) (word : String) :
    (place.send word [arg]).tokens = place.tokens ++ callTokens word arg.tokens := by
  simp [Expr.tokens, Expr.send, Expr.listTokens, Token.commaSeparated, callTokens]

section Places

variable (hw : grammar.Writes)
include hw

theorem Writes.leads_name (h : word = "self" ∨ word ∉ keywords) (hr : Follows r) :
    grammar.Leads (.name word) r := fun read hread => hw.name word r read h hr hread

theorem Leads.field {token : Token} (h : grammar.Leads place (.symbol '.' false :: token :: r))
    (hp : place.isRange = false) (hn : token.namesField) (hr : Follows r) :
    grammar.Leads (.field place token) r := by
  intro read hread
  have happend : (Expr.field place token).tokens ++ r =
      place.tokens ++ .symbol '.' false :: token :: r := by
    simp [Expr.tokens]
  rw [happend]
  exact h read (hw.field place token r read hp hn hr hread)

/-- A call is read behind its place when its arguments are. -/
theorem Leads.call {args : List Expr} {inner : List Token} {read : Expr × List Token}
    (h : grammar.Leads place (callTokens word inner ++ r)) (hp : place.isRange = false)
    (hk : word ∉ keywords) (ha : grammar.argument (inner ++ .closing .round :: r) = some (args, r))
    (hread : grammar.extend (place.send word args) r = some read) :
    grammar.operand (place.tokens ++ (callTokens word inner ++ r)) = some read := by
  refine h read ?_
  have htokens : callTokens word inner ++ r =
      .symbol '.' false :: .word word :: .opening .round :: (inner ++ .closing .round :: r) := by
    simp [callTokens, Token.enclosed]
  rw [htokens]
  exact hw.call place word _ args r read hp hk ha hread

theorem Leads.send (h : grammar.Leads place (callTokens word [] ++ r)) (hp : place.isRange = false)
    (hk : word ∉ keywords) : grammar.Leads (place.send word []) r := by
  intro read hread
  rw [tokens_send, List.append_assoc]
  exact h.call hw hp hk rfl hread

end Places

/-! ## What stands behind a test -/

/-- In front of a boundary nothing that binds tighter than a conjunction extends an operand. -/
theorem climb_boundary {level : Level} (hs : Boundary s)
    (hl : BinaryOp.and.level < level ∨ atEnd s) :
    grammar.climb (d + 1) level e s = some (e, s) := by
  cases hs with
  | nothing | bracket =>
    unfold climb
    split
    · rfl
    · exact if_neg fun h => Bool.false_ne_true h.2
  | conjunct joined rest =>
    rw [climb_operator read?_conjunct, if_pos (hl.resolve_right (by simp [atEnd])), ite_self]

/-- A right operand of a conjunction ends in front of a boundary. -/
theorem absorb_boundary (hs : Boundary s) :
    grammar.absorb (d + 1) BinaryOp.and.level e s = some (e, s) := by
  have hlevel : nextLevel s ≤ BinaryOp.and.level := by
    cases hs with
    | nothing | bracket => exact Nat.zero_le BinaryOp.and.level
    | conjunct => exact Nat.le_refl BinaryOp.and.level
  rw [absorb, if_neg]
  rintro (h | ⟨h, hassign⟩)
  · exact Nat.not_lt.mpr hlevel h
  · rw [hassign] at h
    cases h

/-- An expression is its first operand, extended by the operators that follow. -/
theorem expr_eq_climb (h : grammar.operand t = some (left, r)) :
    grammar.expr t = grammar.climb (turnsFor r) 0 left r := by
  rw [expr, h]
  rfl

/-- An operand that ends the tokens is all of the expression. -/
theorem expr_of_operand (hs : Boundary s) (he : atEnd s) (h : grammar.operand t = some (e, s)) :
    grammar.expr t = some (e, s) :=
  (expr_eq_climb h).trans (climb_boundary hs (.inr he))

theorem Writes.readsBack_callOf (hw : grammar.Writes) {owner function : String}
    (ho : owner = "Self" ∨ owner ∉ keywords) (hf : function ∉ keywords) :
    grammar.ReadsBack (.callOf owner function) := by
  refine expr_of_operand .nothing rfl ?_
  simpa using hw.callOf owner function [] ho hf .nothing

/-! ## Tests -/

/-- In front of these tokens the test is read as one operand of a conjunction. -/
structure IsTest (grammar : Grammar) (e : Expr) (s : List Token) : Prop where
  isRange : e.isRange = false
  expr : ∀ d read, d ≤ turnsFor s → grammar.climb d 0 e s = some read →
    grammar.expr (e.tokens ++ s) = some read
  rightOperand : ∀ d, turnsFor (e.tokens ++ s) ≤ d →
    grammar.rightOperand d BinaryOp.and.level (e.tokens ++ s) = some (e, s)

/-- In front of a comparison the value is read. -/
structure IsValue (grammar : Grammar) (value : Expr) : Prop where
  isRange : value.isRange = false
  isComparison : value.isComparison = false
  operand : ∀ r, grammar.operand (value.tokens ++ (Token.operator "==" ++ r)) =
    some (value, Token.operator "==" ++ r)

theorem read?_equals : BinaryOp.read? (Token.operator "==" ++ r) = some (.eq, r) := rfl

section Tests

variable (hg : grammar.Lawful)
include hg

theorem Lawful.isTest_of_operand (hs : Boundary s) (he : e.isRange = false)
    (h : grammar.operand (e.tokens ++ s) = some (e, s)) : grammar.IsTest e s where
  isRange := he
  expr d read hd hread := by
    rw [expr_eq_climb h]
    exact hg.climb_mono hd hread
  rightOperand d hd := by
    obtain ⟨d, rfl⟩ : ∃ d', d = d' + 2 := ⟨d - 2, by simp only [turnsFor] at hd; omega⟩
    rw [Grammar.rightOperand, h]
    exact absorb_boundary hs

/-- A call without arguments on a place is a test. -/
theorem Lawful.isTest_send (hs : Boundary s) (h : grammar.Leads place (callTokens word [] ++ s))
    (hp : place.isRange = false) (hk : word ∉ keywords) :
    grammar.IsTest (place.send word []) s :=
  hg.isTest_of_operand hs rfl (h.send hg.writes hp hk _ (hg.writes.ends _ s hs))

theorem Leads.isValue (h : ∀ r, grammar.Leads place (Token.operator "==" ++ r))
    (hp : place.isRange = false) (hc : place.isComparison = false) : grammar.IsValue place where
  isRange := hp
  isComparison := hc
  operand r := h r _ (hg.writes.compared place r)

theorem IsValue.deref (h : ∀ r, grammar.Leads place (Token.operator "==" ++ r)) :
    grammar.IsValue (.unary '*' place) where
  isRange := rfl
  isComparison := rfl
  operand r := hg.writes.star _ _ _ (h r _ (hg.writes.compared place r))

/-- A value is extended by the comparison with a tight operand. -/
theorem Lawful.climb_comparison {level : Level} (hs : Boundary s) (hv : grammar.IsValue value)
    (hr : grammar.ReadsBack right) (ht : right.tight) (hc : atEnd s ∨ right.closed)
    (hl : level ≤ BinaryOp.eq.level) (hd : turnsFor right.tokens ≤ d) :
    grammar.climb (d + 1) level value (Token.operator "==" ++ (right.tokens ++ s)) =
      grammar.climb d level (.binary .eq value right) s := by
  rw [climb_operator read?_equals, hv.isRange, if_neg Bool.false_ne_true,
    if_neg (Nat.not_lt.mpr hl), hv.isComparison, if_neg fun h => Bool.false_ne_true h.2]
  show (grammar.rightOperand d Level.compare _).bind _ = _
  rw [hg.operand_append hs hr ht hc hd]
  rfl

/-- A comparison with a tight operand is a test, in front of a boundary that the operand ends at. -/
theorem Lawful.isTest_comparison (hs : Boundary s) (hv : grammar.IsValue value)
    (hr : grammar.ReadsBack right) (ht : right.tight) (hc : atEnd s ∨ right.closed) :
    grammar.IsTest (.binary .eq value right) s := by
  have htokens : (Expr.binary .eq value right).tokens ++ s =
      value.tokens ++ (Token.operator "==" ++ (right.tokens ++ s)) := by
    simp [Expr.tokens, BinaryOp.text]
  have hturns : turnsFor (Token.operator "==" ++ (right.tokens ++ s)) =
      turnsFor right.tokens + 4 * s.length + 8 := by
    simp [turnsFor, Token.operator, Token.operatorChars]
    omega
  refine ⟨rfl, fun d read hd hread => ?_, fun d hd => ?_⟩
  · rw [htokens, expr_eq_climb (hv.operand _), hturns,
      hg.climb_comparison hs hv hr ht hc (Nat.zero_le _) (by omega)]
    refine hg.climb_mono ?_ hread
    simp only [turnsFor] at hd ⊢
    omega
  · have hlength : turnsFor right.tokens + 8 ≤ d := by
      rw [htokens] at hd
      simp only [turnsFor, List.length_append] at hd hturns ⊢
      omega
    obtain ⟨d, rfl⟩ : ∃ d', d = d' + 5 := ⟨d - 5, by omega⟩
    rw [htokens, Grammar.rightOperand, hv.operand]
    refine absorb_first (nextLevel_of_read? read?_equals) (by decide) ?_ ?_ (absorb_boundary hs)
    · rw [hg.climb_comparison hs hv hr ht hc (Nat.le_refl _) (by omega)]
      exact climb_boundary hs (.inl (by decide))
    · simp [Token.operator, Token.operatorChars]
      omega

end Tests

/-! ## Tests one after another -/

/-- The tokens of tests behind the first, each behind the sign of a conjunction. -/
def chained (tests : List Expr) : List Token :=
  tests.flatMap fun test => Token.operator "&&" ++ test.tokens

theorem boundary_chained (tests : List Expr) : Boundary (chained tests) := by
  cases tests with
  | nil => exact .nothing
  | cons test tests => exact .conjunct false _

/-- Each test of the list is one in front of those that follow it. -/
def AreTests (grammar : Grammar) : List Expr → Prop
  | [] => True
  | test :: rest => grammar.IsTest test (chained rest) ∧ AreTests grammar rest

/-- The tests that follow an operand are joined to it one by one. -/
theorem climb_chained {tests : List Expr} (h : grammar.AreTests tests) (hl : left.isRange = false)
    (hd : turnsFor (chained tests) ≤ d) :
    grammar.climb d 0 left (chained tests) = some (tests.foldl (.binary .and) left, []) := by
  induction tests generalizing left d with
  | nil =>
    obtain ⟨d, rfl⟩ : ∃ d', d = d' + 1 := ⟨d - 1, by simp only [turnsFor] at hd; omega⟩
    exact climb_boundary .nothing (.inr rfl)
  | cons test rest ih =>
    have hturns :
        turnsFor (chained (test :: rest)) = turnsFor (test.tokens ++ chained rest) + 8 := by
      simp [chained, turnsFor, Token.operator, Token.operatorChars]
      omega
    rw [hturns] at hd
    obtain ⟨d, rfl⟩ : ∃ d', d = d' + 1 := ⟨d - 1, by omega⟩
    have hread : BinaryOp.read? (chained (test :: rest)) =
        some (.and, test.tokens ++ chained rest) := by
      rw [chained, List.flatMap_cons, List.append_assoc]
      exact read?_conjunct
    rw [climb_operator hread, hl, if_neg Bool.false_ne_true, if_neg (Nat.not_lt_zero _),
      if_neg fun h => by cases h.1]
    show (grammar.rightOperand d BinaryOp.and.level _).bind _ = _
    rw [h.1.rightOperand d (by omega)]
    refine ih h.2 rfl ?_
    simp only [turnsFor, List.length_append] at hd ⊢
    omega

theorem tokens_foldl (tests : List Expr) :
    (tests.foldl (.binary .and) left).tokens = left.tokens ++ chained tests := by
  induction tests generalizing left with
  | nil => simp [chained]
  | cons test rest ih =>
    rw [List.foldl_cons, ih]
    simp [chained, Expr.tokens, BinaryOp.text]

/-- Tests with conjunctions between them are read as the conjunction that groups to the left. -/
theorem readsBack_of_areTests {tests : List Expr} (h : grammar.AreTests (left :: tests)) :
    grammar.ReadsBack (tests.foldl (.binary .and) left) := by
  rw [ReadsBack, tokens_foldl]
  exact h.1.expr _ _ (Nat.le_refl _) (climb_chained h.2 h.1.isRange (Nat.le_refl _))

/-! ## A test of all elements -/

theorem tokens_function (word : String) (body : Expr) :
    (Expr.function word body).tokens =
      .symbol '|' false :: .word word :: .symbol '|' false :: body.tokens := by
  simp [Expr.function, Expr.tokens, Token.commaSeparated]

/-- A test is read as the body of a function that is the argument of a call. -/
theorem Lawful.argument_function (hg : grammar.Lawful) (hk : word ∉ keywords)
    (hb : grammar.IsTest e (.closing .round :: s)) :
    grammar.argument ((Expr.function word e).tokens ++ .closing .round :: s) =
      some ([.function word e], s) := by
  have hs : Boundary (.closing .round :: s) := .bracket _ _
  have hbody : grammar.expr (e.tokens ++ .closing .round :: s) = some (e, .closing .round :: s) :=
    hb.expr 1 _ (by simp only [turnsFor]; omega) (climb_boundary hs (.inr rfl))
  have hexpr := expr_of_operand hs rfl (hg.writes.function word _ _ _ hk hbody rfl)
  rw [tokens_function]
  simp only [List.cons_append, argument, hexpr]
  rfl

/-- One test of all elements is read as the function that is called for each of them. -/
theorem Lawful.readsBack_all (hg : grammar.Lawful) (h : ∀ r, grammar.Leads place r)
    (hp : place.isRange = false) (hk : word ∉ keywords)
    (hb : grammar.IsTest e [.closing .round]) :
    grammar.ReadsBack (place.send "all" [.function word e]) := by
  refine expr_of_operand .nothing rfl ?_
  have hcall := (h (callTokens "all" (Expr.function word e).tokens ++ [])).call hg.writes hp
    (by decide) (hg.argument_function hk hb) (hg.writes.ends _ [] .nothing)
  simpa [tokens_send_one] using hcall

end CopySynth.Code.Grammar
