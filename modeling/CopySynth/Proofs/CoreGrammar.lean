import CopySynth.Proofs.Grouping
import CopySynth.Proofs.ReadTests

/-!
# The grammar of a core

A small grammar that has all the laws: its operands are literals, names, calls of a function of a
type, dereferences and functions of at most one variable, and names are extended by fields and by
calls with at most one argument. What is inside an operand is read by the grammar of one level less;
the number of tokens tells the level that suffices.
-/

namespace CopySynth.Code.Core

variable {inner wider : Grammar} {s t r : List Token} {e whole : Expr}

/-! ## Operands -/

/-- Whether the tokens go on a path. -/
def beginsPath : List Token → Bool
  | .symbol char _ :: _ => char == ':'
  | _ => false

/-- Reads an operand over the grammar of what is inside it. -/
def operandWith (inner : Grammar) : Read Expr
  | .literal text :: rest => some (.literal text, rest)
  | .symbol '*' _ :: rest => (inner.operand rest).map fun read => (.unary '*' read.1, read.2)
  | .symbol '|' _ :: .symbol '|' _ :: rest =>
    (inner.expr rest).map fun read => (.closure false [] false read.1, read.2)
  | .symbol '|' _ :: .word word :: .symbol '|' _ :: rest =>
    if word ∈ keywords then none
    else (inner.expr rest).map fun read => (.function word read.1, read.2)
  | .symbol '<' false :: .word type :: .symbol '>' false :: .symbol ':' true :: .symbol ':' false ::
      .word "default" :: .opening .round :: .closing .round :: rest =>
    some (.defaultOf [.word type], rest)
  | .word owner :: .symbol ':' true :: .symbol ':' false :: .word function :: .opening .round ::
      .closing .round :: rest =>
    if (owner = "Self" ∨ owner ∉ keywords) ∧ function ∉ keywords then
      some (.callOf owner function, rest)
    else none
  | .word word :: rest =>
    if (word = "self" ∨ word ∉ keywords) ∧ beginsPath rest = false then
      inner.extend (.name word) rest
    else none
  | _ => none

/-- What an operand is. -/
inductive OperandOf (inner : Grammar) : List Token → Expr → List Token → Prop
  | literal (text : String) (r : List Token) :
      OperandOf inner (.literal text :: r) (.literal text) r
  | star (joined : Bool) {t r : List Token} {e : Expr} (h : inner.operand t = some (e, r)) :
      OperandOf inner (.symbol '*' joined :: t) (.unary '*' e) r
  | constant (joined joined' : Bool) {t r : List Token} {e : Expr}
      (h : inner.expr t = some (e, r)) :
      OperandOf inner (.symbol '|' joined :: .symbol '|' joined' :: t) (.closure false [] false e) r
  | function (joined joined' : Bool) {word : String} {t r : List Token} {e : Expr}
      (hk : word ∉ keywords) (h : inner.expr t = some (e, r)) :
      OperandOf inner (.symbol '|' joined :: .word word :: .symbol '|' joined' :: t)
        (.function word e) r
  | defaultOf (type : String) (r : List Token) :
      OperandOf inner ((Expr.defaultOf [.word type]).tokens ++ r) (.defaultOf [.word type]) r
  | callOf {owner function : String} (ho : owner = "Self" ∨ owner ∉ keywords)
      (hf : function ∉ keywords) (r : List Token) :
      OperandOf inner ((Expr.callOf owner function).tokens ++ r) (.callOf owner function) r
  | name {word : String} {t r : List Token} {e : Expr} (hw : word = "self" ∨ word ∉ keywords)
      (hp : beginsPath t = false) (h : inner.extend (.name word) t = some (e, r)) :
      OperandOf inner (.word word :: t) e r

theorem operandWith_eq_some_iff :
    operandWith inner t = some (e, r) ↔ OperandOf inner t e r := by
  constructor
  · intro h
    unfold operandWith at h
    split at h
    · cases h
      exact .literal _ _
    · obtain ⟨read, hread, h⟩ := Option.map_eq_some_iff.mp h
      cases h
      exact .star _ hread
    · obtain ⟨read, hread, h⟩ := Option.map_eq_some_iff.mp h
      cases h
      exact .constant _ _ hread
    · split at h
      · cases h
      · rename_i hk
        obtain ⟨read, hread, h⟩ := Option.map_eq_some_iff.mp h
        cases h
        exact .function _ _ hk hread
    · cases h
      exact .defaultOf _ _
    · split at h
      · rename_i hok
        cases h
        exact .callOf hok.1 hok.2 _
      · cases h
    · split at h
      · rename_i hok
        exact .name hok.1 hok.2 h
      · cases h
    · cases h
  · intro h
    cases h with
    | literal => rfl
    | star _ h | constant _ _ h => simp [operandWith, h]
    | function _ _ hk h => simp [operandWith, hk, h]
    | defaultOf => rfl
    | callOf ho hf => exact if_pos ⟨ho, hf⟩
    | name hw hp h =>
      unfold operandWith
      split <;> simp_all [beginsPath]

/-! ## What extends an operand -/

/-- Reads what extends an operand, over the grammar of what is inside it. -/
def extendWith (inner : Grammar) (e : Expr) : Read Expr
  | .symbol '.' _ :: .word word :: .opening .round :: rest =>
    if e.isRange = false ∧ word ∉ keywords then
      (inner.argument rest).bind fun read => inner.extend (e.send word read.1) read.2
    else none
  | .symbol '.' _ :: token :: rest =>
    if e.isRange = false ∧ token.namesField then inner.extend (.field e token) rest else none
  | [.symbol '.' _] => none
  | tokens => some (e, tokens)

/-- What an operand is extended to. -/
inductive ExtensionOf (inner : Grammar) (e : Expr) : List Token → Expr → List Token → Prop
  | ends {t : List Token} (h : ∀ joined rest, t ≠ .symbol '.' joined :: rest) :
      ExtensionOf inner e t e t
  | field (joined : Bool) {token : Token} {t r : List Token} {whole : Expr}
      (he : e.isRange = false) (hn : token.namesField)
      (hc : ∀ word args, token = .word word → t ≠ .opening .round :: args)
      (h : inner.extend (.field e token) t = some (whole, r)) :
      ExtensionOf inner e (.symbol '.' joined :: token :: t) whole r
  | call (joined : Bool) {word : String} {t rest r : List Token} {args : List Expr} {whole : Expr}
      (he : e.isRange = false) (hk : word ∉ keywords) (ha : inner.argument t = some (args, rest))
      (h : inner.extend (e.send word args) rest = some (whole, r)) :
      ExtensionOf inner e (.symbol '.' joined :: .word word :: .opening .round :: t) whole r

theorem extendWith_eq_some_iff :
    extendWith inner e t = some (whole, r) ↔ ExtensionOf inner e t whole r := by
  constructor
  · intro h
    unfold extendWith at h
    split at h
    · split at h
      · rename_i hok
        obtain ⟨read, ha, h⟩ := Option.bind_eq_some_iff.mp h
        exact .call _ hok.1 hok.2 ha h
      · cases h
    · rename_i hno
      split at h
      · rename_i hok
        refine .field _ hok.1 hok.2 (fun word args hw ht => ?_) h
        exact hno _ _ (by rw [hw]) ht
      · cases h
    · cases h
    · rename_i hfield hpoint
      cases h
      refine .ends fun joined rest ht => ?_
      cases rest with
      | nil => exact hpoint joined ht
      | cons token rest => exact hfield joined token rest ht
  · intro h
    cases h with
    | ends h =>
      unfold extendWith
      split <;> simp_all
    | field _ he hn hc h =>
      unfold extendWith
      split <;> simp_all
    | call _ he hk ha h => simp [extendWith, he, hk, ha, h]

/-- Reads a type: one name. -/
def type : Read (List Token)
  | .word word :: rest => if word ∈ keywords then none else some ([.word word], rest)
  | _ => none

/-- The grammar whose operands are nested this deep. -/
def level : Nat → Grammar
  | 0 => { operand := fun _ => none, extend := fun _ _ => none, type }
  | depth + 1 => { operand := operandWith (level depth), extend := extendWith (level depth), type }

/-- The grammar of the core. -/
def grammar : Grammar where
  operand t := (level (t.length + 1)).operand t
  extend e t := (level (t.length + 1)).extend e t
  type := type

/-! ## The laws of all grammars -/

/-- What more can extend: no operator joins it, nothing becomes a part of it at its end, and its
arguments are grouped. -/
structure Extensible (e : Expr) : Prop where
  single : e.joins = false
  closed : e.closed
  grouped : e.grouped

theorem extensible_name (word : String) : Extensible (.name word) := ⟨rfl, rfl, rfl⟩

theorem extensible_field (e : Expr) (token : Token) : Extensible (.field e token) := ⟨rfl, rfl, rfl⟩

theorem extensible_send {args : List Expr} (h : Expr.allGrouped args) (e : Expr) (word : String) :
    Extensible (e.send word args) := ⟨rfl, rfl, h⟩

/-- A grammar with the laws of operands, in which what extends an operand is one. -/
structure Sound (inner : Grammar) : Prop where
  steady : inner.Steady
  extend_takes : ∀ e t whole r, inner.extend e t = some (whole, r) → r.length ≤ t.length
  extend_keeps : ∀ e t whole r, Extensible e → inner.extend e t = some (whole, r) →
    Extensible whole

section Sound

variable (h : Sound inner)
include h

theorem Sound.operand_takes (ho : OperandOf inner t e r) : r.length < t.length := by
  cases ho with
  | literal => exact Nat.lt_succ_self _
  | star _ ho => exact Nat.lt_succ_of_lt (h.steady.operand_takes _ _ _ ho)
  | constant _ _ hb | function _ _ _ hb =>
    have := h.steady.expr_takes hb
    simp only [List.length_cons]
    omega
  | defaultOf | callOf =>
    simp [Expr.defaultOf, Expr.callOf, Expr.tokens]
    omega
  | name _ _ ho => exact Nat.lt_succ_of_le (h.extend_takes _ _ _ _ ho)

theorem Sound.extension_takes (he : ExtensionOf inner e t whole r) : r.length ≤ t.length := by
  cases he with
  | ends => exact Nat.le_refl _
  | field _ _ _ _ he =>
    have := h.extend_takes _ _ _ _ he
    simp only [List.length_cons]
    omega
  | call _ _ _ ha he =>
    have := h.steady.argument_takes ha
    have := h.extend_takes _ _ _ _ he
    simp only [List.length_cons]
    omega

theorem Sound.extension_keeps (hx : Extensible e) (he : ExtensionOf inner e t whole r) :
    Extensible whole := by
  cases he with
  | ends => exact hx
  | field _ _ _ _ he => exact h.extend_keeps _ _ _ _ (extensible_field _ _) he
  | call _ _ _ ha he =>
    exact h.extend_keeps _ _ _ _ (extensible_send (h.steady.argument_grouped ha) _ _) he

/-- An operand is single and grouped, and a conjunction goes on only behind a closed one. -/
theorem Sound.operand_keeps (ho : OperandOf inner t e r) :
    e.joins = false ∧ e.grouped ∧ (begins "&&" r → e.closed) := by
  cases ho with
  | literal | defaultOf | callOf => exact ⟨rfl, rfl, fun _ => rfl⟩
  | star _ ho => exact ⟨rfl, rfl, fun hgoes => (h.steady.operand_sealed _ _ _ ho hgoes :)⟩
  | constant _ _ hb | function _ _ _ hb =>
    obtain ⟨hgrouped, hend⟩ := h.steady.expr_groups hb
    exact ⟨rfl, hgrouped, fun hgoes => absurd hgoes hend⟩
  | name _ _ ho =>
    obtain ⟨hsingle, hclosed, hgrouped⟩ := h.extend_keeps _ _ _ _ (extensible_name _) ho
    exact ⟨hsingle, hgrouped, fun _ => hclosed⟩

end Sound

theorem type_takes {found : List Token} (h : type t = some (found, r)) : r.length < t.length := by
  unfold type at h
  split at h
  · split at h <;> cases h
    exact Nat.lt_succ_self _
  · cases h

theorem sound_level (depth : Nat) : Sound (level depth) := by
  induction depth with
  | zero =>
    refine ⟨⟨?_, fun _ _ _ => type_takes, ?_, ?_, ?_⟩, ?_, ?_⟩ <;> intros <;> contradiction
  | succ depth ih =>
    exact {
      steady := {
        operand_takes := fun _ _ _ h => ih.operand_takes (operandWith_eq_some_iff.mp h)
        type_takes := fun _ _ _ => type_takes
        operand_single := fun _ _ _ h => (ih.operand_keeps (operandWith_eq_some_iff.mp h)).1
        operand_grouped := fun _ _ _ h => (ih.operand_keeps (operandWith_eq_some_iff.mp h)).2.1
        operand_sealed := fun _ _ _ h => (ih.operand_keeps (operandWith_eq_some_iff.mp h)).2.2 }
      extend_takes := fun _ _ _ _ h => ih.extension_takes (extendWith_eq_some_iff.mp h)
      extend_keeps := fun _ _ _ _ hx h => ih.extension_keeps hx (extendWith_eq_some_iff.mp h) }

theorem steady : grammar.Steady where
  operand_takes t := (sound_level (t.length + 1)).steady.operand_takes t
  type_takes _ _ _ := type_takes
  operand_single t := (sound_level (t.length + 1)).steady.operand_single t
  operand_grouped t := (sound_level (t.length + 1)).steady.operand_grouped t
  operand_sealed t := (sound_level (t.length + 1)).steady.operand_sealed t

/-! ## Reading in front of a boundary -/

/-- What one level reads another reads, too, when these tokens follow. -/
structure Lasts (s : List Token) (inner wider : Grammar) : Prop where
  carries : Grammar.Carries s inner wider
  extend : ∀ e t whole r, inner.extend e t = some (whole, r) →
    wider.extend e (t ++ s) = some (whole, r ++ s)

section Lasts

variable (hs : Boundary s)
include hs

theorem beginsPath_append (t : List Token) : beginsPath (t ++ s) = beginsPath t := by
  cases t with
  | nil => cases hs <;> rfl
  | cons token t => cases token <;> rfl

variable (hsound : Sound inner) (h : Lasts s inner wider)
include hsound h

theorem Lasts.argument {args : List Expr} (ha : inner.argument t = some (args, r)) :
    wider.argument (t ++ s) = some (args, r ++ s) := by
  rcases Grammar.argument_cases ha with ⟨rfl, rfl⟩ | ⟨arg, rfl, harg⟩
  · rfl
  · have hread := h.carries.expr hs hsound.steady harg .of_cons
    unfold Grammar.argument at ha ⊢
    split at ha
    · cases ha
    · rename_i hno
      split
      · rename_i heq
        obtain ⟨t', rfl⟩ : ∃ t', t = .closing .round :: t' := by
          cases t with
          | nil => exact absurd (hsound.steady.expr_takes harg) (Nat.not_lt_zero _)
          | cons token t =>
            cases heq
            exact ⟨t, rfl⟩
        exact (hno _ rfl).elim
      · rw [hread]
        rfl

theorem Lasts.operandOf (ho : OperandOf inner t e r) (hends : Ends r s ∨ e.closed) :
    OperandOf wider (t ++ s) e (r ++ s) := by
  cases ho with
  | literal text r => exact .literal text (r ++ s)
  | star joined ho => exact .star joined (h.carries.operand _ _ _ ho hends)
  | constant joined joined' hb =>
    exact .constant joined joined' (h.carries.expr hs hsound.steady hb (hends.resolve_right nofun))
  | function joined joined' hk hb =>
    exact .function joined joined' hk
      (h.carries.expr hs hsound.steady hb (hends.resolve_right nofun))
  | defaultOf type r =>
    rw [List.append_assoc]
    exact .defaultOf type (r ++ s)
  | callOf ho hf r =>
    rw [List.append_assoc]
    exact .callOf ho hf (r ++ s)
  | name hw hp ho =>
    exact .name hw ((beginsPath_append hs _).trans hp) (h.extend _ _ _ _ ho)

theorem Lasts.extensionOf (he : ExtensionOf inner e t whole r) :
    ExtensionOf wider e (t ++ s) whole (r ++ s) := by
  cases he with
  | ends hno =>
    refine .ends fun joined rest heq => ?_
    obtain ⟨t', rfl, -⟩ := hs.append_eq_cons heq rfl
    exact hno joined t' rfl
  | field joined he hn hc h' =>
    refine .field joined he hn (fun word args hw heq => ?_) (h.extend _ _ _ _ h')
    obtain ⟨t', rfl, -⟩ := hs.append_eq_cons heq rfl
    exact hc word t' hw rfl
  | call joined he hk ha h' =>
    exact .call joined he hk (h.argument hs hsound ha) (h.extend _ _ _ _ h')

end Lasts

theorem type_append {found : List Token} (h : type t = some (found, r)) :
    type (t ++ s) = some (found, r ++ s) := by
  unfold type at h
  split at h
  · split at h
    · cases h
    · rename_i hk
      cases h
      exact if_neg hk
  · cases h

theorem lasts_level (hs : Boundary s) {d e : Nat} (h : d ≤ e) : Lasts s (level d) (level e) := by
  induction d generalizing e with
  | zero =>
    refine ⟨⟨nofun, fun _ _ _ htype => ?_⟩, nofun⟩
    cases e <;> exact type_append htype
  | succ d ih =>
    obtain ⟨e, rfl⟩ : ∃ e', e = e' + 1 := ⟨e - 1, by omega⟩
    have ih := ih (Nat.le_of_succ_le_succ h)
    refine ⟨⟨fun t x r ho hends => ?_, fun _ _ _ => type_append⟩, fun x t whole r he => ?_⟩
    · exact operandWith_eq_some_iff.mpr
        (ih.operandOf hs (sound_level d) (operandWith_eq_some_iff.mp ho) hends)
    · exact extendWith_eq_some_iff.mpr
        (ih.extensionOf hs (sound_level d) (extendWith_eq_some_iff.mp he))

theorem carries (hs : Boundary s) : Grammar.Carries s grammar grammar where
  operand t := by
    have hlevel : t.length + 1 ≤ (t ++ s).length + 1 := by
      rw [List.length_append]
      omega
    exact (lasts_level hs hlevel).carries.operand t
  type _ _ _ := type_append

/-! ## The level that suffices -/

/-- Two grammars read the same in fewer than so many tokens, also what extends an operand. -/
structure Alike (n : Nat) (inner wider : Grammar) : Prop where
  agrees : Grammar.Agrees n inner wider
  extend : ∀ e t, t.length < n → inner.extend e t = wider.extend e t

namespace Alike

variable {n : Nat}

theorem symm (h : Alike n inner wider) : Alike n wider inner :=
  ⟨⟨fun t ht => (h.agrees.operand t ht).symm, fun t ht => (h.agrees.type t ht).symm⟩,
    fun e t ht => (h.extend e t ht).symm⟩

variable (h : Alike n inner wider) (hsound : Sound inner)
include h hsound

theorem operandOf (hn : t.length ≤ n) (ho : OperandOf inner t e r) : OperandOf wider t e r := by
  cases ho with
  | literal text r => exact .literal text r
  | star joined ho => exact .star joined (by rwa [← h.agrees.operand _ hn])
  | constant joined joined' hb =>
    exact .constant joined joined' (by rwa [← h.agrees.expr hsound.steady (Nat.lt_of_succ_lt hn)])
  | function joined joined' hk hb =>
    refine .function joined joined' hk ?_
    rwa [← h.agrees.expr hsound.steady (Nat.lt_of_succ_lt (Nat.lt_of_succ_lt hn))]
  | defaultOf type r => exact .defaultOf type r
  | callOf ho hf r => exact .callOf ho hf r
  | name hw hp ho => exact .name hw hp (by rwa [← h.extend _ _ hn])

theorem extensionOf (hn : t.length ≤ n) (he : ExtensionOf inner e t whole r) :
    ExtensionOf wider e t whole r := by
  cases he with
  | ends hno => exact .ends hno
  | field joined he hk hc h' =>
    exact .field joined he hk hc (by rwa [← h.extend _ _ (Nat.lt_of_succ_lt hn)])
  | call joined he hk ha h' =>
    simp only [List.length_cons] at hn
    have := hsound.steady.argument_takes ha
    have hargs := (h.agrees.argument hsound.steady (by omega)).symm.trans ha
    exact .call joined he hk hargs (by rwa [← h.extend _ _ (by omega)])

end Alike

theorem alike_level_succ (d : Nat) : Alike d (level d) (level (d + 1)) := by
  induction d with
  | zero => exact ⟨⟨nofun, nofun⟩, nofun⟩
  | succ d ih =>
    have hsymm := ih.symm
    refine ⟨⟨fun t ht => Option.ext fun read => ?_, fun _ _ => rfl⟩,
      fun e t ht => Option.ext fun read => ?_⟩
    · exact operandWith_eq_some_iff.trans <| .trans
        ⟨ih.operandOf (sound_level d) (Nat.le_of_lt_succ ht),
          hsymm.operandOf (sound_level (d + 1)) (Nat.le_of_lt_succ ht)⟩
        operandWith_eq_some_iff.symm
    · exact extendWith_eq_some_iff.trans <| .trans
        ⟨ih.extensionOf (sound_level d) (Nat.le_of_lt_succ ht),
          hsymm.extensionOf (sound_level (d + 1)) (Nat.le_of_lt_succ ht)⟩
        extendWith_eq_some_iff.symm

theorem alike_level {d e : Nat} (h : d ≤ e) : Alike d (level d) (level e) := by
  induction h with
  | refl => exact ⟨⟨fun _ _ => rfl, fun _ _ => rfl⟩, fun _ _ _ => rfl⟩
  | @step e hle ih =>
    have hle : d ≤ e := hle
    have hnext := alike_level_succ e
    exact ⟨⟨fun t ht => (ih.agrees.operand t ht).trans (hnext.agrees.operand t (by omega)),
      fun t ht => (ih.agrees.type t ht).trans (hnext.agrees.type t (by omega))⟩,
      fun x t ht => (ih.extend x t ht).trans (hnext.extend x t (by omega))⟩

theorem alike_grammar (d : Nat) : Alike d grammar (level d) where
  agrees := {
    operand := fun t ht => (alike_level ht).agrees.operand t (Nat.lt_succ_self _)
    type := fun t ht => (alike_level ht).agrees.type t (Nat.lt_succ_self _) }
  extend := fun e t ht => (alike_level ht).extend e t (Nat.lt_succ_self _)

/-! ## The laws of generated code -/

theorem operand_of (h : OperandOf (level t.length) t e r) : grammar.operand t = some (e, r) :=
  operandWith_eq_some_iff.mpr h

theorem extend_of (h : ExtensionOf (level t.length) e t whole r) :
    grammar.extend e t = some (whole, r) :=
  extendWith_eq_some_iff.mpr h

theorem writes : grammar.Writes where
  name word r read hw hr hread := operand_of (.name hw (by cases hr <;> rfl) hread)
  literal text s _ := operand_of (.literal text s)
  star t e r h := operand_of (.star false h)
  function word t body r hk hb _ := by
    have hlevel := alike_grammar (t.length + 3)
    have hbody := (hlevel.agrees.expr steady (by omega)).symm.trans hb
    exact operand_of (.function false false hk hbody)
  callOf owner function s ho hf _ := operand_of (.callOf ho hf s)
  field e token r read he hn hr hread := by
    have hwhole := ((alike_grammar (r.length + 2)).extend _ r (by omega)).symm.trans hread
    exact extend_of (.field false he hn (fun _ _ _ => by cases hr <;> simp [Token.operator,
      Token.operatorChars]) hwhole)
  call e word t args r read he hk ha hread := by
    have := steady.argument_takes ha
    have hlevel := alike_grammar (t.length + 3)
    have hargs := (hlevel.agrees.argument steady (by omega)).symm.trans ha
    have hwhole := (hlevel.extend (e.send word args) r (by omega)).symm.trans hread
    exact extend_of (.call false he hk hargs hwhole)
  ends e s hs := extend_of (.ends (by cases hs <;> simp))
  compared e r := extend_of (.ends (by simp [Token.operator, Token.operatorChars]))

theorem lawful : grammar.Lawful := ⟨steady, fun _ => carries, writes⟩

end CopySynth.Code.Core
