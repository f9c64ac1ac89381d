import CopySynth.Emission.Source
import CopySynth.Proofs.MadeMethods
import CopySynth.Proofs.Outcome
import CopySynth.Proofs.SpelledNames

/-!
# What can be written out

The check of a table looks at the names of its types and fields, not at those of its builtins. Where
these are read as types, and their zero expressions as expressions, one thing is left at which
writing out a synthesis can fail: the name of a clone operation, which is made from the name of a
builtin.
-/

namespace CopySynth

open Code (Language)

/-- The names that the configuration gives to methods and to the interface can be written out. -/
structure Config.Readable (config : Config) (language : Language) : Prop where
  publicTrait : ∀ interface, config.publicTrait = some interface → language.isIdentifier interface
  publicMethod : language.isIdentifier config.publicMethod
  privateMethod : language.isIdentifier config.privateMethod
  zeroMethod : language.isIdentifier config.zeroMethod

/-- The fields of a copy can be written out, and it is no copy of a builtin. -/
structure CopyBody.Readable (body : CopyBody) (language : Language) : Prop where
  own : body ≠ .trivial
  fields : ∀ fields, body = .record fields → ∀ field ∈ fields, language.isIdentifier field.1

/-- The zero expression or the type that a test compares with can be written out. -/
def ZeroTest.Readable (language : Language) : ZeroTest → Prop
  | .literal text => (language.expr? text).isSome
  | .zeroValue (some type) => (language.type? type).isSome
  | .zeroValue none | .empty _ | .unset | .delegate _ => True

/-- The fields and the tests of a predicate can be written out. -/
structure ZeroBody.Readable (body : ZeroBody) (language : Language) : Prop where
  tests : ∀ test ∈ body.tests, test.Readable language
  fields : ∀ tests, body = .allFields tests → ∀ test ∈ tests, language.isIdentifier test.1

/-- The builtins of a table are read as types, and their zero expressions as expressions. -/
structure Table.BuiltinsReadable (table : Table) (language : Language) : Prop where
  types : ∀ name type, (name, .type (.builtin type)) ∈ table.entries →
    (language.type? name).isSome
  literals : ∀ name type literal, (name, .type (.builtin type)) ∈ table.entries →
    type.zero = some literal → (language.expr? literal).isSome

/-- The builtin a name stands for, if it does. -/
def Definition.builtin? : Definition → Option Builtin
  | .type (.builtin builtin) => some builtin
  | _ => none

/-- Whether the builtins are read is seen entry by entry. -/
theorem Table.builtinsReadable_of_entries {table : Table} {language : Language}
    (h : ∀ entry ∈ table.entries, ∀ type ∈ entry.2.builtin?, (language.type? entry.1).isSome ∧
      ∀ literal ∈ type.zero, (language.expr? literal).isSome) : table.BuiltinsReadable language where
  types _ type hm := (h _ hm type rfl).1
  literals _ type literal hm hz := (h _ hm type rfl).2 literal hz

namespace Emission

variable {language : Language} {config : Config}

/-! ## What is written out -/

/-- A clone operation is called by its name. -/
theorem isIdentifier_of_elementExpr {place expr : Code.Expr} {copy : ElementCopy}
    {capability : String} (h : elementExpr language config place copy = .ok expr)
    (hc : copy.capability? = some capability) :
    language.isIdentifier (config.capabilityMethod capability) := by
  cases copy with
  | assign | helper | external => cases hc
  | capability name =>
    cases hc
    obtain ⟨method, hm, _⟩ := bind_eq_ok_iff.mp h
    exact Language.isIdentifier_iff.mpr ⟨method, identifier_eq_ok_iff.mp hm⟩

/-- The members of a record copy stand for its fields, each under its bare name. -/
theorem forall₂_of_memberCopies {fields : List (String × ElementCopy)}
    {members : List Code.Member} (h : memberCopies language config fields = .ok members) :
    List.Forall₂ (fun field member => ∃ word value, language.identifier? field.1 = some word ∧
      elementExpr language config (.field self (.word word)) field.2 = .ok value ∧
      member = .named word value) fields members := by
  induction fields generalizing members with
  | nil =>
    cases pure_eq_ok_iff.mp h
    exact .nil
  | cons field fields ih =>
    obtain ⟨name, copy⟩ := field
    obtain ⟨word, hw, h⟩ := bind_eq_ok_iff.mp h
    obtain ⟨value, hv, h⟩ := bind_eq_ok_iff.mp h
    obtain ⟨rest, hr, h⟩ := bind_eq_ok_iff.mp h
    cases pure_eq_ok_iff.mp h
    exact .cons ⟨word, value, identifier_eq_ok_iff.mp hw, hv, rfl⟩ (ih hr)

/-- The copy of each constituent was written out. -/
theorem exists_of_copyExpr {type : String} {body : CopyBody} {expr : Code.Expr}
    (h : copyExpr language config type body = .ok expr) :
    ∀ copy ∈ body.elements, ∃ place value, elementExpr language config place copy = .ok value := by
  intro copy hc
  cases body with
  | trivial | shallow => exact absurd hc List.not_mem_nil
  | dynamic | fixed =>
    cases List.mem_singleton.mp hc
    obtain ⟨value, hv, _⟩ := bind_eq_ok_iff.mp h
    exact ⟨_, value, hv⟩
  | record fields =>
    obtain ⟨members, hm, _⟩ := bind_eq_ok_iff.mp h
    obtain ⟨field, hf, rfl⟩ := List.mem_map.mp hc
    obtain ⟨_, _, word, value, _, hv, _⟩ := exists_of_mem_left (forall₂_of_memberCopies hm) hf
    exact ⟨_, value, hv⟩

theorem eq_of_copyBlock {type : String} {body : CopyBody} {doc : Option String}
    {visibility : Code.Visibility} {block : Code.ImplBlock}
    (h : copyBlock language config type body doc visibility = .ok block) :
    block.interface = none ∧ language.identifier? type = some block.target ∧
      copyExpr language config type body = .ok block.method.body := by
  obtain ⟨target, ht, h⟩ := bind_eq_ok_iff.mp h
  obtain ⟨method, _, h⟩ := bind_eq_ok_iff.mp h
  obtain ⟨expr, he, h⟩ := bind_eq_ok_iff.mp h
  cases pure_eq_ok_iff.mp h
  exact ⟨rfl, identifier_eq_ok_iff.mp ht, he⟩

/-- What offers a copy through an interface has the target of that copy. -/
theorem eq_of_interfaceBlock {target method interface : String} {block : Code.ImplBlock}
    (h : interfaceBlock language config target method interface = .ok block) :
    block.interface.isSome ∧ block.target = target := by
  obtain ⟨interface, _, h⟩ := bind_eq_ok_iff.mp h
  obtain ⟨name, _, h⟩ := bind_eq_ok_iff.mp h
  cases pure_eq_ok_iff.mp h
  exact ⟨rfl, rfl⟩

/-- A copy is written out as the type's own method, behind which the method of an interface may
stand. -/
theorem blocks_of_copy {method : Method} {body : CopyBody} {blocks : List Code.ImplBlock}
    (hb : method.body = .copy body) (h : methodBlocks language config method = .ok blocks) :
    ∃ own others, blocks = own :: others ∧ own.interface = none ∧
      language.identifier? method.type = some own.target ∧
      copyExpr language config method.type body = .ok own.method.body ∧
      ∀ block ∈ others, block.interface.isSome ∧ block.target = own.target := by
  rw [methodBlocks, hb] at h
  cases hf : method.family with
  | zeroPredicate =>
    rw [hf] at h
    exact absurd h throw_ne_ok
  | privateCopy =>
    rw [hf] at h
    obtain ⟨own, ho, h⟩ := bind_eq_ok_iff.mp h
    cases pure_eq_ok_iff.mp h
    obtain ⟨hi, ht, he⟩ := eq_of_copyBlock ho
    exact ⟨own, [], rfl, hi, ht, he, by simp⟩
  | publicCopy =>
    rw [hf] at h
    obtain ⟨own, ho, h⟩ := bind_eq_ok_iff.mp h
    obtain ⟨hi, ht, he⟩ := eq_of_copyBlock ho
    cases hp : config.publicTrait with
    | none =>
      rw [hp] at h
      cases pure_eq_ok_iff.mp h
      exact ⟨own, [], rfl, hi, ht, he, by simp⟩
    | some interface =>
      rw [hp] at h
      obtain ⟨offered, hoffered, h⟩ := bind_eq_ok_iff.mp h
      cases pure_eq_ok_iff.mp h
      exact ⟨own, [offered], rfl, hi, ht, he,
        List.forall_mem_singleton.mpr (eq_of_interfaceBlock hoffered)⟩

/-- A predicate is written out as one method of the type. -/
theorem blocks_of_zero {method : Method} {body : ZeroBody} {blocks : List Code.ImplBlock}
    (hb : method.body = .zero body) (h : methodBlocks language config method = .ok blocks) :
    ∃ own, blocks = [own] ∧ own.interface = none ∧
      language.identifier? method.type = some own.target := by
  rw [methodBlocks, hb] at h
  cases hf : method.family with
  | publicCopy | privateCopy =>
    rw [hf] at h
    exact absurd h throw_ne_ok
  | zeroPredicate =>
    rw [hf] at h
    obtain ⟨target, ht, h⟩ := bind_eq_ok_iff.mp h
    obtain ⟨name, _, h⟩ := bind_eq_ok_iff.mp h
    obtain ⟨expr, _, h⟩ := bind_eq_ok_iff.mp h
    cases pure_eq_ok_iff.mp h
    exact ⟨_, rfl, rfl, identifier_eq_ok_iff.mp ht⟩

/-- A source has one text for each method of the synthesis. -/
theorem forall₂_of_source {synthesis : Synthesis} {source : Source}
    (h : Emission.source language config synthesis = .ok source) :
    List.Forall₂ (fun method code => ∃ blocks, methodBlocks language config method = .ok blocks ∧
      code = ⟨method.type, method.family, method.discovered, Code.renderBlocks blocks⟩)
      synthesis.methods source.methods := by
  obtain ⟨methods, hm, h⟩ := bind_eq_ok_iff.mp h
  cases pure_eq_ok_iff.mp h
  refine (mapM_eq_ok_iff.mp hm).imp fun method code hc => ?_
  obtain ⟨blocks, hb, hc⟩ := bind_eq_ok_iff.mp hc
  exact ⟨blocks, hb, (pure_eq_ok_iff.mp hc).symm⟩

/-! ## What cannot be written out -/

/-- The name of a clone operation of one of these interfaces cannot be written out. -/
def CloneFault (language : Language) (config : Config) (capabilities : List String)
    (fault : GenerationError) : Prop :=
  ∃ capability ∈ capabilities, language.isIdentifier (config.capabilityMethod capability) = false ∧
    fault = .invalidIdentifier (config.capabilityMethod capability)

section Faults

variable {P : GenerationError → Prop}

theorem failsOnly_identifier {name : String} (h : language.isIdentifier name) :
    FailsOnly P (identifier language name) := by
  obtain ⟨word, hw⟩ := Language.isIdentifier_iff.mp h
  rw [identifier, hw]
  exact .ok word

theorem failsOnly_testExpr (hc : config.Readable language) {place value : Code.Expr}
    {test : ZeroTest} (ht : test.Readable language) :
    FailsOnly P (testExpr language config place value test) := by
  cases test with
  | literal text =>
    obtain ⟨expr, he⟩ := Option.isSome_iff_exists.mp ht
    rw [testExpr, literal, he]
    exact .ok _
  | zeroValue type =>
    cases type with
    | none => exact .ok _
    | some type =>
      obtain ⟨tokens, htokens⟩ := Option.isSome_iff_exists.mp ht
      rw [testExpr, typeTokens, htokens]
      exact .ok _
  | empty wrapped => cases wrapped <;> exact .ok _
  | unset => exact .ok _
  | delegate type => exact .bind (failsOnly_identifier hc.zeroMethod) fun _ => .ok _

theorem failsOnly_fieldTests (hc : config.Readable language) {tests : List (String × ZeroTest)}
    (hn : ∀ test ∈ tests, language.isIdentifier test.1)
    (ht : ∀ test ∈ tests, test.2.Readable language) :
    FailsOnly P (fieldTests language config tests) := by
  induction tests with
  | nil => exact .ok []
  | cons test tests ih =>
    obtain ⟨hname, hn⟩ := List.forall_mem_cons.mp hn
    obtain ⟨htest, ht⟩ := List.forall_mem_cons.mp ht
    refine .bind (failsOnly_identifier hname) fun word => ?_
    exact .bind (failsOnly_testExpr hc htest) fun _ => .bind (ih hn ht) fun _ => .ok _

theorem failsOnly_zeroPredicate (hc : config.Readable language) {type : String}
    (htype : language.isIdentifier type) {body : ZeroBody} (hb : body.Readable language) :
    FailsOnly P (zeroPredicate language config type body) := by
  have hexpr : FailsOnly P (zeroExpr language config body) := by
    cases body with
    | equalsZeroValue => exact .ok _
    | allFields tests =>
      refine .bind (failsOnly_fieldTests hc (hb.fields tests rfl) fun test ht => ?_) fun _ => .ok _
      exact hb.tests test.2 (List.mem_map_of_mem (f := Prod.snd) ht)
    | allElements test =>
      exact .bind (failsOnly_testExpr hc (hb.tests test (List.mem_singleton_self _))) fun _ => .ok _
  refine .bind (failsOnly_identifier htype) fun _ => ?_
  exact .bind (failsOnly_identifier hc.zeroMethod) fun _ => .bind hexpr fun _ => .ok _

end Faults

variable {capabilities : List String}

theorem failsOnly_elementExpr (hc : config.Readable language) {place : Code.Expr}
    {copy : ElementCopy}
    (hm : ∀ capability, copy.capability? = some capability → capability ∈ capabilities) :
    FailsOnly (CloneFault language config capabilities)
      (elementExpr language config place copy) := by
  cases copy with
  | assign | external => exact .ok _
  | helper type => exact .bind (failsOnly_identifier hc.privateMethod) fun _ => .ok _
  | capability name =>
    refine .bind ?_ fun _ => .ok _
    rw [identifier]
    split
    · exact .ok _
    · rename_i hno
      exact .error ⟨name, hm name rfl, by simp [Language.isIdentifier, hno], rfl⟩

theorem failsOnly_memberCopies (hc : config.Readable language) {fields : List (String × ElementCopy)}
    (hn : ∀ field ∈ fields, language.isIdentifier field.1)
    (hm : ∀ field ∈ fields, ∀ capability, field.2.capability? = some capability →
      capability ∈ capabilities) :
    FailsOnly (CloneFault language config capabilities) (memberCopies language config fields) := by
  induction fields with
  | nil => exact .ok []
  | cons field fields ih =>
    obtain ⟨hname, hn⟩ := List.forall_mem_cons.mp hn
    obtain ⟨hfield, hm⟩ := List.forall_mem_cons.mp hm
    refine .bind (failsOnly_identifier hname) fun word => ?_
    exact .bind (failsOnly_elementExpr hc hfield) fun _ => .bind (ih hn hm) fun _ => .ok _

theorem failsOnly_copyBlock (hc : config.Readable language) {type : String}
    (ht : language.isIdentifier type) {body : CopyBody} (hb : body.Readable language)
    (hm : ∀ c ∈ body.capabilities, c ∈ capabilities) (doc : Option String)
    (visibility : Code.Visibility) :
    FailsOnly (CloneFault language config capabilities)
      (copyBlock language config type body doc visibility) := by
  have helement {copy : ElementCopy} (hin : copy ∈ body.elements) (capability : String)
      (hcall : copy.capability? = some capability) : capability ∈ capabilities :=
    hm capability (List.mem_filterMap.mpr ⟨copy, hin, hcall⟩)
  have hexpr : FailsOnly (CloneFault language config capabilities)
      (copyExpr language config type body) := by
    cases body with
    | trivial => exact absurd rfl hb.own
    | shallow => exact .ok _
    | dynamic | fixed =>
      exact .bind (failsOnly_elementExpr hc (helement (List.mem_singleton_self _))) fun _ => .ok _
    | record fields =>
      refine .bind (failsOnly_memberCopies hc (hb.fields fields rfl) fun field hf => ?_)
        fun _ => .ok _
      exact helement (List.mem_map_of_mem (f := Prod.snd) hf)
  refine .bind (failsOnly_identifier ht) fun _ => ?_
  exact .bind (failsOnly_identifier hc.privateMethod) fun _ => .bind hexpr fun _ => .ok _

theorem failsOnly_publicCopy (hc : config.Readable language) {type : String}
    (ht : language.isIdentifier type) {body : CopyBody} (hb : body.Readable language)
    (hm : ∀ c ∈ body.capabilities, c ∈ capabilities) :
    FailsOnly (CloneFault language config capabilities) (publicCopy language config type body) := by
  refine .bind (failsOnly_copyBlock hc ht hb hm _ _) fun own => ?_
  split
  · exact .ok _
  · rename_i interface hi
    have hoffered : FailsOnly (CloneFault language config capabilities)
        (interfaceBlock language config own.target own.method.name interface) := by
      refine .bind (failsOnly_identifier (hc.publicTrait interface hi)) fun _ => ?_
      exact .bind (failsOnly_identifier hc.publicMethod) fun _ => .ok _
    exact .bind hoffered fun _ => .ok _

end Emission

/-! ## Bodies of a table that passes its check -/

namespace Table

variable {table : Table} {language : Code.Language} {config : Config} {roots : List String}
  {synthesis : Synthesis}

theorem isIdentifier_of_mem (hv : table.validate language = .ok ()) {name : String}
    (hn : name ∈ table.identifierNames) : language.isIdentifier name :=
  firstMisnamed_eq_none_iff.mp (validate_eq_ok_iff.mp hv).2.1 name hn

theorem mem_identifierNames {name : String} {shape : Shape}
    (hg : table.get? name = some (.type shape)) (hb : shape.isBuiltin = false) :
    name ∈ table.identifierNames :=
  mem_identifierNames_iff.mpr ⟨name, _, hg, hb, .inl rfl⟩

theorem field_mem_identifierNames {name : String} {fields : List (String × Ref)}
    (hg : table.get? name = some (.type (.record fields))) {field : String × Ref}
    (hf : field ∈ fields) : field.1 ∈ table.identifierNames :=
  mem_identifierNames_iff.mpr ⟨name, _, hg, rfl, .inr ⟨fields, rfl, .field hf⟩⟩

theorem readable_of_copyBody (hv : table.validate language = .ok ()) {name : String} {shape : Shape}
    {body : CopyBody} (hg : table.get? name = some (.type shape)) (hb : shape.isBuiltin = false)
    (h : table.copyBody name = .ok body) : body.Readable language := by
  refine ⟨fun hc => ?_, ?_⟩
  · rw [(trivial_iff hg h).mp hc] at hb
    cases hb
  · rintro copies rfl copy hc
    obtain ⟨fields, rfl, hall⟩ := forall₂_fields_of_copyBody hg h
    obtain ⟨field, hf, he, _⟩ := exists_of_mem_right hall hc
    rw [he]
    exact isIdentifier_of_mem hv (field_mem_identifierNames hg hf)

theorem readable_of_zeroTest (hlaws : language.Lawful) (hv : table.validate language = .ok ())
    (hb : table.BuiltinsReadable language) {owner context : String} {ref : Ref} {test : ZeroTest}
    (h : table.zeroTest owner context ref = .ok test) : test.Readable language := by
  rcases zeroTest_cases h with ⟨_, _, rfl⟩ | ⟨_, canonical, shape, _, hl, hcase⟩
  · trivial
  have he := get?_eq_some_iff.mp hl.get?
  rcases hcase with ⟨literal, hz, rfl⟩ | ⟨_, rfl⟩ | ⟨_, rfl⟩
  · cases shape with
    | builtin type => exact hb.literals _ _ _ he hz
    | fixed | dynamic | record => cases hz
  · show (language.type? canonical).isSome
    cases hs : shape.isBuiltin with
    | true =>
      cases shape with
      | builtin type => exact hb.types _ _ he
      | fixed | dynamic | record => cases hs
    | false =>
      obtain ⟨word, hw⟩ :=
        Language.isIdentifier_iff.mp (isIdentifier_of_mem hv (mem_identifierNames hl.get? hs))
      exact hlaws.type canonical word hw
  · cases shape with
    | builtin type =>
      rw [partTest]
      split <;> trivial
    | fixed | dynamic | record => trivial

theorem readable_of_zeroBody (hlaws : language.Lawful) (hv : table.validate language = .ok ())
    (hb : table.BuiltinsReadable language) {name : String} {body : ZeroBody}
    (h : table.zeroBody name = .ok (some body)) :
    body.Readable language ∧ language.isIdentifier name := by
  rcases zeroBody_cases h with ⟨hnone, _⟩ | ⟨shape, hg, hp, hcase⟩
  · cases hnone
  have hs : shape.isBuiltin = false := by cases shape <;> first | rfl | cases hp
  refine ⟨?_, isIdentifier_of_mem hv (mem_identifierNames hg hs)⟩
  rcases hcase with ⟨_, hbody⟩ | ⟨_, spelled, hbody, hspelled⟩
  · cases hbody
    exact ⟨by simp [ZeroBody.tests], fun _ hc => by cases hc⟩
  cases hbody
  refine ⟨fun test ht => ?_, ?_⟩
  · obtain ⟨slot, _, he⟩ := exists_of_mem_right (forall₂_slots_of_spelledZero hspelled) ht
    exact readable_of_zeroTest hlaws hv hb he
  · rintro tests rfl test ht
    cases shape with
    | builtin | dynamic => cases hp
    | fixed =>
      obtain ⟨_, _, hspelled⟩ := bind_eq_ok_iff.mp hspelled
      cases pure_eq_ok_iff.mp hspelled
    | record fields =>
      obtain ⟨_, ⟨⟩, hall⟩ := forall₂_fields_of_spelledZero hspelled
      obtain ⟨field, hf, he, _⟩ := exists_of_mem_right hall ht
      rw [he]
      exact isIdentifier_of_mem hv (field_mem_identifierNames hg hf)

/-- The methods of a run over a table that passes its check are written out unless a clone operation
that they call has a name that cannot be. -/
theorem failsOnly_methodCode (hlaws : language.Lawful) (hv : table.validate language = .ok ())
    (hb : table.BuiltinsReadable language) (hc : config.Readable language)
    (h : table.synthesize language config roots = .ok synthesis) {method : Method}
    (hm : method ∈ synthesis.methods) :
    FailsOnly (Emission.CloneFault language config synthesis.capabilities)
      (Emission.methodCode language config method) := by
  refine .bind ?_ fun _ => .ok _
  obtain ⟨_, hcapabilities⟩ := capabilities_of_synthesize h
  have hcopy {type : String} {body : CopyBody}
      (hn : table.CopyNeeded (table.rootNames roots) type)
      (hbody : table.copyBody type = .ok body) :
      language.isIdentifier type ∧ body.Readable language ∧
        ∀ c ∈ body.capabilities, c ∈ synthesis.capabilities := by
    obtain ⟨shape, hg, hs⟩ := hn.get?
    exact ⟨isIdentifier_of_mem hv (mem_identifierNames hg hs), readable_of_copyBody hv hg hs hbody,
      fun c hcall => (hcapabilities c).mpr ⟨type, body, hn, hbody, hcall⟩⟩
  cases (mem_methods_iff h).mp hm with
  | publicCopy hr hbody =>
    obtain ⟨ht, hread, hcalls⟩ := hcopy (.start hr) hbody
    exact Emission.failsOnly_publicCopy hc ht hread hcalls
  | privateCopy hn _ hbody =>
    obtain ⟨ht, hread, hcalls⟩ := hcopy hn hbody
    exact .bind (Emission.failsOnly_copyBlock hc ht hread hcalls _ _) fun _ => .ok _
  | zeroPredicate hbody _ =>
    obtain ⟨hread, ht⟩ := readable_of_zeroBody hlaws hv hb hbody
    exact Emission.failsOnly_zeroPredicate hc ht hread

/-- Over a table that passes its check, whose builtins are read as types and whose zero expressions
as expressions, the methods of a run are written out exactly when the names of all clone operations
that they call can be. Otherwise one of these names is refused. -/
theorem source_of_synthesize (hlaws : language.Lawful) (hv : table.validate language = .ok ())
    (hb : table.BuiltinsReadable language) (hc : config.Readable language)
    (h : table.synthesize language config roots = .ok synthesis) :
    ((∃ source, Emission.source language config synthesis = .ok source) ↔
      ∀ capability ∈ synthesis.capabilities,
        language.isIdentifier (config.capabilityMethod capability)) ∧
    FailsOnly (Emission.CloneFault language config synthesis.capabilities)
      (Emission.source language config synthesis) := by
  have hfails : FailsOnly (Emission.CloneFault language config synthesis.capabilities)
      (Emission.source language config synthesis) :=
    .bind (.mapM fun method hm => failsOnly_methodCode hlaws hv hb hc h hm) fun _ => .ok _
  refine ⟨⟨?_, fun hall => ?_⟩, hfails⟩
  · rintro ⟨source, hs⟩ capability hcap
    obtain ⟨type, body, hn, hbody, hcall⟩ :=
      ((capabilities_of_synthesize h).2 capability).mp hcap
    obtain ⟨method, hm, _, hcopy⟩ := Synthesis.mem_copies_iff.mp
      ((mem_copies_of_synthesize h).mpr ⟨hn, hbody⟩)
    obtain ⟨code, _, blocks, hblocks, _⟩ :=
      exists_of_mem_left (Emission.forall₂_of_source hs) hm
    obtain ⟨own, _, _, _, _, hexpr, _⟩ := Emission.blocks_of_copy hcopy hblocks
    obtain ⟨copy, hin, hcapability⟩ := List.mem_filterMap.mp hcall
    obtain ⟨place, value, helement⟩ := Emission.exists_of_copyExpr hexpr copy hin
    exact Emission.isIdentifier_of_elementExpr helement hcapability
  · cases hs : Emission.source language config synthesis with
    | ok source => exact ⟨source, rfl⟩
    | error fault =>
      obtain ⟨capability, hcap, hno, _⟩ := hfails fault hs
      rw [hall capability hcap] at hno
      cases hno

theorem config_readable : Config.Readable {} Reader.language := by
  refine ⟨?_, by decide +kernel, by decide +kernel, by decide +kernel⟩
  rintro _ ⟨⟩
  decide +kernel

theorem builtinsReadable_ring : ring.BuiltinsReadable Reader.language :=
  builtinsReadable_of_entries (by decide +kernel)

/-- The methods for the ring are written out. -/
theorem source_ring :
    ∃ synthesis source, ring.synthesize Reader.language {} ["Ring"] = .ok synthesis ∧
    Emission.source Reader.language {} synthesis = .ok source := by
  obtain ⟨hiff, _⟩ :=
    source_of_synthesize Reader.lawful_language validate_ring builtinsReadable_ring config_readable
      synthesize_ring
  obtain ⟨source, hs⟩ := hiff.mpr (by decide +kernel)
  exact ⟨ringMethods, source, synthesize_ring, hs⟩

/-- Icons with a picture behind an interface of another unit. -/
def gallery : Table where
  entries := [("ui::Image", .capability), ("Icon", .type (.record [("image", .named "ui::Image")]))]
  distinct_names := by decide
  distinct_fields := by
    simp [Definition.Distinct, Definition.capability, Shape.Distinct, Ref.FieldsDistinct,
      Ref.Distinct]

theorem source_gallery :
    gallery.validate Reader.language = .ok () ∧ gallery.BuiltinsReadable Reader.language ∧
    Config.Readable {} Reader.language ∧
    Reader.language.isIdentifier ({} : Config).capabilityPrefix ∧
    ∃ synthesis, gallery.synthesize Reader.language {} ["Icon"] = .ok synthesis ∧
      Emission.source Reader.language {} synthesis =
        .error (.invalidIdentifier "clone_ui::image") := by
  exact ⟨by decide +kernel, builtinsReadable_of_entries (by decide +kernel), config_readable,
    by decide +kernel, _, rfl, by decide +kernel⟩

end Table

end CopySynth
