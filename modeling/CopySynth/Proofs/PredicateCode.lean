import CopySynth.Emission.ZeroMethod
import CopySynth.Proofs.CoreGrammar
import CopySynth.Proofs.Grouping
import CopySynth.Proofs.Lists
import CopySynth.Proofs.ReadTests
import CopySynth.Proofs.ZeroBodies
import CopySynth.Reader.Language

/-!
# Reading zero predicates in code

A zero predicate is written without brackets around what its tests compare with. It is read as the
predicate that was written exactly when each of these operands binds tighter than a comparison, and
ends where the next test follows.
-/

namespace CopySynth

open Code (Expr Grammar Language)
open Code.Grammar (tokens_send tokens_function)

/-- The expression that a test compares with. The other tests call a method. -/
def ZeroTest.operand? (language : Language) : ZeroTest → Option Expr
  | .literal text => language.expr? text
  | .zeroValue (some type) => (language.type? type).map Expr.defaultOf
  | .zeroValue none => some (.callOf "Default" "default")
  | .empty _ | .unset | .delegate _ => none

namespace Emission

variable {language : Language} {grammar : Grammar} {config : Config} {place value e : Expr}
  {test : ZeroTest} {s : List Code.Token}

/-- What a test of the constituent at this place is in code. -/
inductive TestOf (language : Language) (config : Config) (place value : Expr) :
    ZeroTest → Expr → Prop where
  | comparison {test : ZeroTest} {right : Expr} (h : test.operand? language = some right) :
      TestOf language config place value test (.binary .eq value right)
  | emptyStorage :
      TestOf language config place value (.empty true) ((storage place).send "is_empty" [])
  | empty : TestOf language config place value (.empty false) (place.send "is_empty" [])
  | unset : TestOf language config place value .unset (place.send "is_none" [])
  | delegate (type : String) {word : String}
      (h : language.identifier? config.zeroMethod = some word) :
      TestOf language config place value (.delegate type) (place.send word [])

theorem testOf_of_testExpr (h : testExpr language config place value test = .ok e) :
    TestOf language config place value test e := by
  cases test with
  | literal text =>
    obtain ⟨right, hr, h⟩ := bind_eq_ok_iff.mp h
    cases pure_eq_ok_iff.mp h
    exact .comparison (literal_eq_ok_iff.mp hr)
  | zeroValue type =>
    cases type with
    | none =>
      cases pure_eq_ok_iff.mp h
      exact .comparison rfl
    | some type =>
      obtain ⟨tokens, ht, h⟩ := bind_eq_ok_iff.mp h
      cases pure_eq_ok_iff.mp h
      exact .comparison (by rw [ZeroTest.operand?, typeTokens_eq_ok_iff.mp ht]; rfl)
  | empty wrapped =>
    cases wrapped <;> cases pure_eq_ok_iff.mp h
    · exact .empty
    · exact .emptyStorage
  | unset =>
    cases pure_eq_ok_iff.mp h
    exact .unset
  | delegate type =>
    obtain ⟨word, hw, h⟩ := bind_eq_ok_iff.mp h
    cases pure_eq_ok_iff.mp h
    exact .delegate type (identifier_eq_ok_iff.mp hw)

/-! ## Tests that are read -/

section Read

variable (hg : grammar.Lawful)
include hg

/-- Whatever a test compares with is read by itself. -/
theorem readsBack_operand (hs : grammar.Shows language) {right : Expr}
    (ho : test.operand? language = some right) : grammar.ReadsBack right := by
  cases test with
  | literal text => exact hs.expr text right ho
  | zeroValue type =>
    cases type with
    | none =>
      cases ho
      exact hg.writes.readsBack_callOf (.inr (by decide)) (by decide)
    | some type =>
      obtain ⟨tokens, ht, rfl⟩ := Option.map_eq_some_iff.mp ho
      refine Grammar.expr_of_operand .nothing rfl ?_
      simpa using hs.type type tokens [] ht .nothing
  | empty | unset | delegate => cases ho

/-- Where a place is read, the storage behind it is. -/
theorem leads_storage (hplace : ∀ r, Code.Follows r → grammar.Leads place r)
    (hp : place.isRange = false) (hs : Code.Follows s) : grammar.Leads (storage place) s :=
  (hplace _ (.point _)).field hg.writes hp rfl hs

theorem leads_field {word : String} (hw : word ∉ Code.keywords) (hs : Code.Follows s) :
    grammar.Leads (.field self (.word word)) s :=
  (hg.writes.leads_name (.inl rfl) (.point _)).field hg.writes rfl (decide_eq_true hw) hs

/-- A test is read as an operand of a conjunction when what it compares with is. -/
theorem TestOf.isTest (hl : language.Lawful) (h : TestOf language config place value test e)
    (hs : Code.Boundary s) (hplace : ∀ r, Code.Follows r → grammar.Leads place r)
    (hp : place.isRange = false) (hv : grammar.IsValue value)
    (hr : ∀ right, test.operand? language = some right →
      grammar.ReadsBack right ∧ right.tight ∧ (Code.atEnd s ∨ right.closed)) :
    grammar.IsTest e s := by
  cases h with
  | comparison h =>
    obtain ⟨hread, ht, hc⟩ := hr _ h
    exact hg.isTest_comparison hs hv hread ht hc
  | emptyStorage =>
    exact hg.isTest_send hs (leads_storage hg hplace hp (.point _)) rfl (by decide)
  | empty | unset => exact hg.isTest_send hs (hplace _ (.point _)) hp (by decide)
  | delegate _ h => exact hg.isTest_send hs (hplace _ (.point _)) hp (hl.noKeyword _ _ h)

end Read

/-- The tests of a record's fields, each of the field it belongs to. -/
def FieldTestsOf (language : Language) (config : Config) (tests : List (String × ZeroTest))
    (exprs : List Expr) : Prop :=
  List.Forall₂ (fun test expr => ∃ word, language.identifier? test.1 = some word ∧
    TestOf language config (.field self (.word word)) (.field self (.word word)) test.2 expr)
    tests exprs

theorem fieldTestsOf_of_fieldTests {tests : List (String × ZeroTest)} {exprs : List Expr}
    (h : fieldTests language config tests = .ok exprs) :
    FieldTestsOf language config tests exprs := by
  induction tests generalizing exprs with
  | nil =>
    cases pure_eq_ok_iff.mp h
    exact .nil
  | cons test tests ih =>
    obtain ⟨word, hw, h⟩ := bind_eq_ok_iff.mp h
    obtain ⟨first, hf, h⟩ := bind_eq_ok_iff.mp h
    obtain ⟨rest, hr, h⟩ := bind_eq_ok_iff.mp h
    cases pure_eq_ok_iff.mp h
    exact .cons ⟨word, identifier_eq_ok_iff.mp hw, testOf_of_testExpr hf⟩ (ih hr)

/-- The tests of the fields are read one after another. -/
theorem FieldTestsOf.areTests (hg : grammar.Lawful) (hl : language.Lawful)
    {tests : List (String × ZeroTest)} {exprs : List Expr}
    (h : FieldTestsOf language config tests exprs)
    (hr : ∀ test ∈ tests.map Prod.snd, ∀ right, test.operand? language = some right →
      grammar.ReadsBack right ∧ right.tight)
    (hc : ∀ test ∈ (tests.map Prod.snd).dropLast, ∀ right, test.operand? language = some right →
      right.closed) : grammar.AreTests exprs := by
  induction h with
  | nil => trivial
  | @cons test expr tests exprs hfirst hrest ih =>
    obtain ⟨word, hw, htest⟩ := hfirst
    have hplace := fun r => leads_field (s := r) hg (hl.noKeyword _ _ hw)
    refine ⟨htest.isTest hg hl (Grammar.boundary_chained exprs) hplace rfl
      (Grammar.Leads.isValue hg (fun r => hplace _ (.equals r)) rfl rfl) ?_, ?_⟩
    · intro right ho
      obtain ⟨hread, ht⟩ := hr _ List.mem_cons_self right ho
      refine ⟨hread, ht, ?_⟩
      cases hrest with
      | nil => exact .inl rfl
      | cons => exact .inr (hc _ List.mem_cons_self right ho)
    · refine ih (fun test hm => hr test (List.mem_cons_of_mem _ hm)) fun test hm => hc test ?_
      cases hrest with
      | nil => cases hm
      | cons => exact List.mem_cons_of_mem _ hm

/-- What the predicate of a type is in code. -/
inductive PredicateOf (language : Language) (config : Config) : ZeroBody → Expr → Prop where
  | equalsZeroValue :
      PredicateOf language config .equalsZeroValue
        (.binary .eq (.unary '*' self) (.callOf "Self" "default"))
  | allFields {tests : List (String × ZeroTest)} {exprs : List Expr}
      (h : FieldTestsOf language config tests exprs) :
      PredicateOf language config (.allFields tests) (conjunction exprs)
  | allElements {test : ZeroTest} {expr : Expr}
      (h : TestOf language config (.name "k") (.unary '*' (.name "k")) test expr) :
      PredicateOf language config (.allElements test)
        (((storage self).send "iter" []).send "all" [.function "k" expr])

theorem predicateOf_of_zeroExpr {body : ZeroBody} (h : zeroExpr language config body = .ok e) :
    PredicateOf language config body e := by
  cases body with
  | equalsZeroValue =>
    cases pure_eq_ok_iff.mp h
    exact .equalsZeroValue
  | allFields tests =>
    obtain ⟨exprs, hf, h⟩ := bind_eq_ok_iff.mp h
    cases pure_eq_ok_iff.mp h
    exact .allFields (fieldTestsOf_of_fieldTests hf)
  | allElements test =>
    obtain ⟨expr, ht, h⟩ := bind_eq_ok_iff.mp h
    cases pure_eq_ok_iff.mp h
    exact .allElements (testOf_of_testExpr ht)

/-! ## Operands that are written without brackets -/

/-- In a test that is read, what is compared with binds tighter than the comparison. -/
theorem TestOf.tight_of_grouped (h : TestOf language config place value test e) (hg : e.grouped)
    {right : Expr} (ho : test.operand? language = some right) : right.tight := by
  cases h with
  | comparison h =>
    cases h.symm.trans ho
    simp only [Expr.grouped, Bool.and_eq_true, Bool.or_eq_true] at hg
    exact hg.1.1.1.resolve_left (by decide)
  | emptyStorage | empty | unset | delegate => cases ho

theorem TestOf.closed_iff (h : TestOf language config place value test e) {right : Expr}
    (ho : test.operand? language = some right) : e.closed ↔ right.closed := by
  cases h with
  | comparison h =>
    cases h.symm.trans ho
    rfl
  | emptyStorage | empty | unset | delegate => cases ho

/-- In a conjunction that is read each test is grouped, and all but the last are closed. -/
theorem grouped_of_conjunction {exprs : List Expr} (h : (conjunction exprs).grouped) :
    (∀ expr ∈ exprs, expr.grouped) ∧ ∀ expr ∈ exprs.dropLast, expr.closed := by
  cases exprs with
  | nil => simp
  | cons first rest =>
    rw [conjunction] at h
    induction rest generalizing first with
    | nil => simpa using h
    | cons second rest ih =>
      obtain ⟨hgrouped, hclosed⟩ := ih (.binary .and first second) h
      obtain ⟨hboth, hrest⟩ := List.forall_mem_cons.mp hgrouped
      simp only [Expr.grouped, Bool.and_eq_true, Bool.or_eq_true, bne_self_eq_false,
        Bool.false_eq_true, false_or] at hboth
      refine ⟨List.forall_mem_cons.mpr ⟨hboth.1.2, List.forall_mem_cons.mpr ⟨hboth.2, hrest⟩⟩, ?_⟩
      rw [List.dropLast_cons_cons]
      refine List.forall_mem_cons.mpr ⟨hboth.1.1.2, ?_⟩
      cases rest with
      | nil => simp
      | cons third rest =>
        rw [List.dropLast_cons_cons] at hclosed ⊢
        exact List.forall_mem_cons.mpr (List.forall_mem_cons.mp hclosed)

/-- Where a predicate is read, all that it compares with binds tighter than a comparison and ends
before the next test. -/
theorem PredicateOf.of_readsBack (hg : grammar.Lawful) {body : ZeroBody}
    (h : PredicateOf language config body e) (hread : grammar.ReadsBack e) :
    (∀ test ∈ body.tests, ∀ right, test.operand? language = some right → right.tight) ∧
      ∀ test ∈ body.tests.dropLast, ∀ right, test.operand? language = some right →
        right.closed := by
  have hgrouped := (hg.steady.expr_groups hread).1
  cases h with
  | equalsZeroValue => simp [ZeroBody.tests]
  | allFields h =>
    obtain ⟨hgrouped, hclosed⟩ := grouped_of_conjunction hgrouped
    refine ⟨fun test hm right ho => ?_, fun test hm right ho => ?_⟩
    · obtain ⟨field, hf, rfl⟩ := List.mem_map.mp hm
      obtain ⟨expr, he, _, _, htest⟩ := exists_of_mem_left h hf
      exact htest.tight_of_grouped (hgrouped expr he) ho
    · rw [ZeroBody.tests, ← List.map_dropLast] at hm
      obtain ⟨field, hf, rfl⟩ := List.mem_map.mp hm
      obtain ⟨expr, he, _, _, htest⟩ := exists_of_mem_left (forall₂_dropLast h) hf
      exact (htest.closed_iff ho).mp (hclosed expr he)
  | allElements h =>
    refine ⟨fun test hm right ho => ?_, by simp [ZeroBody.tests]⟩
    cases List.mem_singleton.mp hm
    refine h.tight_of_grouped ?_ ho
    simpa [Expr.send, Expr.function, Expr.grouped, Expr.allGrouped] using hgrouped

/-- A predicate is read when what it compares with is, binds tighter than a comparison and ends
before the next test. -/
theorem PredicateOf.readsBack (hg : grammar.Lawful) (hl : language.Lawful) {body : ZeroBody}
    (h : PredicateOf language config body e)
    (hr : ∀ test ∈ body.tests, ∀ right, test.operand? language = some right →
      grammar.ReadsBack right ∧ right.tight)
    (hc : ∀ test ∈ body.tests.dropLast, ∀ right, test.operand? language = some right →
      right.closed) : grammar.ReadsBack e := by
  cases h with
  | equalsZeroValue =>
    have hdefault : grammar.ReadsBack (.callOf "Self" "default") :=
      hg.writes.readsBack_callOf (.inl rfl) (by decide)
    have hself (r : List Code.Token) : grammar.Leads self (Code.Token.operator "==" ++ r) :=
      hg.writes.leads_name (.inl rfl) (.equals r)
    have htest : grammar.IsTest (.binary .eq (.unary '*' self) (.callOf "Self" "default")) [] :=
      hg.isTest_comparison .nothing (Grammar.IsValue.deref hg hself) hdefault rfl (.inl rfl)
    have htests : grammar.AreTests [.binary .eq (.unary '*' self) (.callOf "Self" "default")] :=
      ⟨htest, trivial⟩
    exact Grammar.readsBack_of_areTests htests
  | @allFields _ exprs h =>
    have htests := h.areTests hg hl hr hc
    cases exprs with
    | nil => exact Grammar.expr_of_operand .nothing rfl (hg.writes.literal "true" [] .nothing)
    | cons first rest => exact Grammar.readsBack_of_areTests htests
  | @allElements test expr h =>
    have hiter (r : List Code.Token) : grammar.Leads ((storage self).send "iter" []) r :=
      (leads_storage hg (fun _ => hg.writes.leads_name (.inl rfl)) rfl (.point _)).send hg.writes
        rfl (by decide)
    have helement (r : List Code.Token) (hr : Code.Follows r) : grammar.Leads (.name "k") r :=
      hg.writes.leads_name (.inr (by decide)) hr
    refine hg.readsBack_all hiter rfl (by decide) ?_
    refine h.isTest hg hl (.bracket _ _) helement rfl
      (Grammar.IsValue.deref hg fun r => helement _ (.equals r)) fun right ho => ?_
    obtain ⟨hread, ht⟩ := hr test List.mem_cons_self right ho
    exact ⟨hread, ht, .inl rfl⟩

/-- The code of a predicate is the conjunction of its tests in order, or the one test of all
elements, and compares with the whole of what a test compares with. A grammar that reads what code
shows of the language reads the code as what was written exactly when the operands of all comparisons
bind tighter than a comparison and those before the last test end where a conjunction follows. -/
theorem readsBack_iff_of_zeroExpr (hg : grammar.Lawful) (hl : language.Lawful)
    (hs : grammar.Shows language) {body : ZeroBody} (h : zeroExpr language config body = .ok e) :
    PredicateOf language config body e ∧ (grammar.ReadsBack e ↔
      (∀ test ∈ body.tests, ∀ right, test.operand? language = some right → right.tight) ∧
        ∀ test ∈ body.tests.dropLast, ∀ right, test.operand? language = some right →
          right.closed) := by
  have hp := predicateOf_of_zeroExpr h
  refine ⟨hp, hp.of_readsBack hg, ?_⟩
  rintro ⟨ht, hc⟩
  exact hp.readsBack hg hl
    (fun test hm right ho => ⟨readsBack_operand hg hs ho, ht test hm right ho⟩) hc

/-- Comparisons with a sum and, last, with a function that would take all that follows it. -/
def sumTests : ZeroBody :=
  .allFields [("depth", .literal "a + 1"), ("names", .empty true), ("maker", .literal "|| b")]

/-- The language as far as these tests need it. -/
def sumLanguage : Language where
  identifier? := Reader.identifier?
  type? text := (Reader.identifier? text).map fun word => [.word word]
  expr? text :=
    if text = "a + 1" then some (.binary .add (.name "a") (.literal "1"))
    else if text = "|| b" then some (.closure false [] false (.name "b"))
    else none

theorem lawful_sumLanguage : sumLanguage.Lawful where
  noKeyword _ _ h := (Reader.identifier?_eq_some_iff.mp h).2
  type _ _ h := by simp [sumLanguage, show Reader.identifier? _ = _ from h]

theorem shows_sumLanguage : Code.Core.grammar.Shows sumLanguage where
  expr text e h := by
    unfold sumLanguage at h
    dsimp only at h
    split at h
    · cases h
      rfl
    · split at h
      · cases h
        rfl
      · cases h
  type text type s h _ := by
    obtain ⟨word, -, rfl⟩ := Option.map_eq_some_iff.mp h
    exact Code.Core.operand_of (.defaultOf word s)

theorem readsBack_sumTests : Code.Core.grammar.Lawful ∧ sumLanguage.Lawful ∧
    Code.Core.grammar.Shows sumLanguage ∧
    ∃ e, zeroExpr sumLanguage {} sumTests = .ok e ∧ Code.Core.grammar.ReadsBack e := by
  refine ⟨Code.Core.lawful, lawful_sumLanguage, shows_sumLanguage, ?_⟩
  have hok : (zeroExpr sumLanguage {} sumTests).isOk := by decide +kernel
  cases h : zeroExpr sumLanguage {} sumTests with
  | error =>
    rw [h] at hok
    cases hok
  | ok e =>
    obtain ⟨_, hiff⟩ :=
      readsBack_iff_of_zeroExpr Code.Core.lawful lawful_sumLanguage shows_sumLanguage h
    refine ⟨e, rfl, hiff.mpr ⟨fun test hm right ho => ?_, fun test hm right ho => ?_⟩⟩
    · simp only [sumTests, ZeroBody.tests, List.map_cons, List.map_nil, List.mem_cons,
        List.not_mem_nil, or_false] at hm
      rcases hm with rfl | rfl | rfl
      · cases ho
        rfl
      · cases ho
      · cases ho
        rfl
    · simp only [sumTests, ZeroBody.tests, List.map_cons, List.map_nil, List.dropLast_cons_cons,
        List.dropLast_singleton, List.mem_cons, List.not_mem_nil, or_false] at hm
      rcases hm with rfl | rfl
      · cases ho
        rfl
      · cases ho

/-- An alternative is no operand of a comparison: it is read with the comparison as its left side
and with the test that follows as a part of its right side. -/
theorem zeroExpr_alternative : ∃ e left right,
    Reader.language.expr? "a || b" = some (.binary .or left right) ∧
    Code.Core.grammar.ReadsBack (.binary .or left right) ∧
    zeroExpr Reader.language {}
      (.allFields [("flag", .literal "a || b"), ("bytes", .empty true)]) = .ok e ∧
    Code.Core.grammar.expr e.tokens =
      some (.binary .or (.binary .eq (.field self (.word "flag")) left)
        (.binary .and right ((storage (.field self (.word "bytes"))).send "is_empty" [])), []) := by
  have hliteral : Reader.language.expr? "a || b" = some (.binary .or (.name "a") (.name "b")) := by
    show Reader.expr? "a || b" = _
    rw [Reader.expr?, show Reader.Lexer.tokens? "a || b" = some [.word "a", .symbol '|' true,
      .symbol '|' false, .word "b"] by decide +kernel]
    rfl
  have hflag : identifier Reader.language "flag" = .ok "flag" := by decide +kernel
  have hbytes : identifier Reader.language "bytes" = .ok "bytes" := by decide +kernel
  have hcode : zeroExpr Reader.language {}
      (.allFields [("flag", .literal "a || b"), ("bytes", .empty true)]) =
      .ok (conjunction
        [.binary .eq (.field self (.word "flag")) (.binary .or (.name "a") (.name "b")),
          (storage (.field self (.word "bytes"))).send "is_empty" []]) := by
    simp only [zeroExpr, fieldTests, hflag, hbytes, testExpr, literal, hliteral]
    rfl
  exact ⟨_, _, _, hliteral, rfl, hcode, rfl⟩

end Emission

end CopySynth
