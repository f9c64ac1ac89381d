import CopySynth.Proofs.Rendering
import Mathlib.Data.Set.Function

/-!
# Which names blocks are attached to

A block is attached to the bare word of its type's name, and a member of a record copy stands under
the bare word of its field's name. Types and fields have distinct names, but two names may have the
same word: white space and comments around it are dropped. So the words are distinct exactly when
the names are told apart by them, as they are when each name is spelled as its word.
-/

namespace CopySynth

open Code (Language)

/-- The field that a member stands for. -/
def Code.Member.name? : Code.Member → Option String
  | .named name _ | .same name => some name
  | .rest _ => none
  | .attributed _ member => member.name?

/-- The names that are written out are spelled as the words that stand for them. -/
def Table.Bare (table : Table) (language : Language) : Prop :=
  ∀ name ∈ table.identifierNames, language.identifier? name = some name

namespace Emission

/-- The blocks that a method is written out as. -/
def blocksOf (language : Language) (config : Config) (method : Method) : List Code.ImplBlock :=
  (methodBlocks language config method).toOption.getD []

/-- The types to which blocks attach methods of their own, as they are written out. -/
def ownTargets (blocks : List Code.ImplBlock) : List String :=
  (blocks.filter fun block => block.interface.isNone).map Code.ImplBlock.target

/-- The types to which the methods of these families are attached, as they are written out. -/
def targets (language : Language) (config : Config) (synthesis : Synthesis)
    (families : List Family) : List String :=
  (synthesis.methods.filter fun method => method.family ∈ families).flatMap fun method =>
    ownTargets (blocksOf language config method)

variable {language : Language} {config : Config} {synthesis : Synthesis} {source : Source}

theorem blocksOf_eq {method : Method} {blocks : List Code.ImplBlock}
    (h : methodBlocks language config method = .ok blocks) :
    blocksOf language config method = blocks := by
  rw [blocksOf, h]
  rfl

/-- A source holds the text of the blocks, method by method. -/
theorem methods_of_source (h : Emission.source language config synthesis = .ok source) :
    (∀ method ∈ synthesis.methods,
      methodBlocks language config method = .ok (blocksOf language config method)) ∧
      source.methods = synthesis.methods.map fun method =>
        ⟨method.type, method.family, method.discovered,
          Code.renderBlocks (blocksOf language config method)⟩ := by
  have hall := forall₂_of_source h
  refine ⟨fun method hm => ?_, ?_⟩
  · obtain ⟨_, _, blocks, hb, _⟩ := exists_of_mem_left hall hm
    rw [hb, blocksOf_eq hb]
  · rw [eq_comm, ← List.forall₂_eq_eq_eq, List.forall₂_map_left_iff]
    refine hall.imp fun method code hc => ?_
    obtain ⟨blocks, hb, rfl⟩ := hc
    rw [blocksOf_eq hb]

/-- A method is attached to the word of its type once. -/
theorem ownTargets_blocksOf {method : Method} {blocks : List Code.ImplBlock}
    (h : methodBlocks language config method = .ok blocks) :
    (ownTargets blocks).map some = [language.identifier? method.type] := by
  cases hb : method.body with
  | copy body =>
    obtain ⟨own, others, rfl, hi, ht, _, ho⟩ := blocks_of_copy hb h
    have hnone : others.filter (fun block => block.interface.isNone) = [] := by
      refine List.filter_eq_nil_iff.mpr fun block hin => ?_
      simp [Option.isSome_iff_ne_none.mp (ho block hin).1]
    simp [ownTargets, hi, hnone, ht]
  | zero body =>
    obtain ⟨own, rfl, hi, ht⟩ := blocks_of_zero hb h
    simp [ownTargets, hi, ht]

/-- The targets of the methods are the words of their types. -/
theorem targets_map_some (h : Emission.source language config synthesis = .ok source)
    (families : List Family) :
    (targets language config synthesis families).map some =
      ((synthesis.methods.filter fun method => method.family ∈ families).map
        Method.type).map language.identifier? := by
  rw [targets, List.map_flatMap, List.map_map, List.map_eq_flatMap]
  refine List.flatMap_congr fun method hm => ?_
  exact ownTargets_blocksOf ((methods_of_source h).1 method (List.mem_filter.mp hm).1)

/-- The methods of these families have distinct targets exactly when their types have distinct
words. -/
theorem nodup_targets_iff (h : Emission.source language config synthesis = .ok source)
    {families : List Family} {types : List String} (hn : types.Nodup)
    (ht : (synthesis.methods.filter fun method => method.family ∈ families).map Method.type =
      types) :
    (targets language config synthesis families).Nodup ↔
      Set.InjOn language.identifier? {n | n ∈ types} := by
  rw [← List.nodup_map_iff (Option.some_injective _), targets_map_some h, ht,
    List.nodup_map_iff_inj_on hn]
  exact ⟨fun hi a ha b hb => hi a ha b hb, fun hi a ha b hb => hi ha hb⟩

/-- The members of a record copy have distinct names exactly when its fields have distinct words. -/
theorem nodup_members_iff {fields : List (String × ElementCopy)} {members : List Code.Member}
    (h : memberCopies language config fields = .ok members) (hn : (fields.map Prod.fst).Nodup) :
    (members.filterMap Code.Member.name?).Nodup ↔
      Set.InjOn language.identifier? {n | n ∈ fields.map Prod.fst} := by
  have hwords : (members.filterMap Code.Member.name?).map some =
      (fields.map Prod.fst).map language.identifier? := by
    have hall := forall₂_of_memberCopies h
    clear h hn
    induction hall with
    | nil => rfl
    | cons hm _ ih =>
      obtain ⟨word, value, hw, _, rfl⟩ := hm
      simp only [List.filterMap_cons, Code.Member.name?, List.map_cons, ih, hw]
  rw [← List.nodup_map_iff (Option.some_injective _), hwords, List.nodup_map_iff_inj_on hn]
  exact ⟨fun hi a ha b hb => hi a ha b hb, fun hi a ha b hb => hi ha hb⟩

end Emission

namespace Synthesis

/-- The methods in the families of copies are the copies. -/
theorem Fitting.copyTypes {synthesis : Synthesis} (h : synthesis.Fitting) :
    (synthesis.methods.filter fun method =>
      method.family ∈ [Family.publicCopy, .privateCopy]).map Method.type =
      synthesis.copies.map Prod.fst := by
  obtain ⟨methods, capabilities⟩ := synthesis
  change ∀ method ∈ methods, method.Fits at h
  simp only [copies]
  induction methods with
  | nil => rfl
  | cons method methods ih =>
    obtain ⟨hm, hrest⟩ := List.forall_mem_cons.mp h
    rw [List.filterMap_cons, List.filter_cons]
    unfold Method.Fits at hm
    cases hb : method.body with
    | copy body =>
      rw [hb] at hm
      have hf : method.family ∈ [Family.publicCopy, .privateCopy] := by
        rcases hm with ⟨hf, _⟩ | ⟨hf, _⟩ <;> simp [hf]
      simp only [hf, decide_true, if_true, List.map_cons, ih hrest]
    | zero body =>
      rw [hb] at hm
      have hf : method.family ∉ [Family.publicCopy, .privateCopy] := by simp [hm]
      simp only [hf, decide_false, Bool.false_eq_true, if_false, ih hrest]

end Synthesis

namespace Table

variable {table : Table} {language : Language} {config : Config} {roots : List String}
  {source : Source}

theorem Bare.injOn (h : table.Bare language) {names : Set String}
    (hn : ∀ name ∈ names, name ∈ table.identifierNames) : Set.InjOn language.identifier? names := by
  intro a ha b hb hab
  rw [h a (hn a ha), h b (hn b hb)] at hab
  exact Option.some.inj hab

/-- The fields of a record copy are those of the record. -/
theorem names_of_copyBody {name : String} {copies : List (String × ElementCopy)} {shape : Shape}
    (hg : table.get? name = some (.type shape)) (h : table.copyBody name = .ok (.record copies)) :
    ∃ fields, shape = .record fields ∧ copies.map Prod.fst = Fields.names fields := by
  obtain ⟨fields, hs, hall⟩ := forall₂_fields_of_copyBody hg h
  exact ⟨fields, hs, names_eq_of_forall₂ hall⟩

/-- The copies of a source have distinct targets exactly when the types whose copies are needed have
distinct words, and its predicates exactly when the types with predicates have. A record copy gives
its members distinct names exactly when the fields of the record have distinct words. All of them
have when the names are spelled as their words. -/
theorem targets_of_generate (h : table.generate language config roots = .ok source) :
    ∃ synthesis, table.synthesize language config roots = .ok synthesis ∧
      source.methods = (synthesis.methods.map fun method =>
        ⟨method.type, method.family, method.discovered,
          Code.renderBlocks (Emission.blocksOf language config method)⟩) ∧
      ((Emission.targets language config synthesis [.publicCopy, .privateCopy]).Nodup ↔
        Set.InjOn language.identifier? {type | table.CopyNeeded (table.rootNames roots) type}) ∧
      ((Emission.targets language config synthesis [.zeroPredicate]).Nodup ↔
        Set.InjOn language.identifier? {type | table.hasPredicate type = true}) ∧
      (∀ method ∈ synthesis.methods, ∀ copies, method.body = .copy (.record copies) →
        ∃ fields members own others, table.get? method.type = some (.type (.record fields)) ∧
          Emission.blocksOf language config method = own :: others ∧
          own.method.body = .record [.word "Self"] members true ∧
          ((members.filterMap Code.Member.name?).Nodup ↔
            Set.InjOn language.identifier? {name | name ∈ Fields.names fields}) ∧
          (table.Bare language → (members.filterMap Code.Member.name?).Nodup)) ∧
      (table.Bare language →
        (Emission.targets language config synthesis [.publicCopy, .privateCopy]).Nodup ∧
        (Emission.targets language config synthesis [.zeroPredicate]).Nodup) := by
  obtain ⟨synthesis, hs, hsource⟩ := bind_eq_ok_iff.mp h
  obtain ⟨hblocks, hcode⟩ := Emission.methods_of_source hsource
  have hcopies : (Emission.targets language config synthesis [.publicCopy, .privateCopy]).Nodup ↔
      Set.InjOn language.identifier? {type | table.CopyNeeded (table.rootNames roots) type} := by
    obtain ⟨hdistinct, hmem⟩ := copyTypes_of_synthesize hs
    rw [Emission.nodup_targets_iff hsource hdistinct (Run.fitting_of_synthesize hs).copyTypes]
    simp only [hmem]
  have hzeros : (Emission.targets language config synthesis [.zeroPredicate]).Nodup ↔
      Set.InjOn language.identifier? {type | table.hasPredicate type = true} := by
    obtain ⟨hdistinct, hmem⟩ := zeroTypes_of_synthesize hs
    rw [Emission.nodup_targets_iff hsource hdistinct (by simp [Synthesis.names])]
    simp only [hmem]
  refine ⟨synthesis, hs, hcode, hcopies, hzeros, ?_, fun hbare => ⟨hcopies.mpr ?_, hzeros.mpr ?_⟩⟩
  · intro method hm copies hbody
    obtain ⟨hn, hb⟩ := (mem_copies_of_synthesize hs).mp
      (Synthesis.mem_copies_iff.mpr ⟨method, hm, rfl, hbody⟩)
    obtain ⟨shape, hg, _⟩ := hn.get?
    obtain ⟨fields, rfl, hnames⟩ := names_of_copyBody hg hb
    obtain ⟨own, others, hwritten, _, _, hexpr, _⟩ :=
      Emission.blocks_of_copy hbody (hblocks method hm)
    obtain ⟨members, hmembers, hrecord⟩ := bind_eq_ok_iff.mp hexpr
    have hiff : (members.filterMap Code.Member.name?).Nodup ↔
        Set.InjOn language.identifier? {name | name ∈ Fields.names fields} := by
      rw [← hnames]
      exact Emission.nodup_members_iff hmembers (hnames ▸ nodup_of_record hg)
    refine ⟨fields, members, own, others, hg, hwritten, (pure_eq_ok_iff.mp hrecord).symm, hiff,
      fun hbare => hiff.mpr (hbare.injOn fun name hname => ?_)⟩
    obtain ⟨field, hf, rfl⟩ := List.mem_map.mp hname
    exact field_mem_identifierNames hg hf
  · refine hbare.injOn fun type ht => ?_
    obtain ⟨shape, hg, hb⟩ := CopyNeeded.get? ht
    exact mem_identifierNames hg hb
  · refine hbare.injOn fun type ht => ?_
    obtain ⟨shape, hg, hp⟩ := hasPredicate_eq_true_iff.mp ht
    exact mem_identifierNames hg (namesBuiltin_eq hg ▸ not_namesBuiltin ht)

/-- In the methods for the ring every type and every field is named once. -/
theorem targets_ring : ∃ source synthesis, ring.generate Reader.language {} ["Ring"] = .ok source ∧
    ring.synthesize Reader.language {} ["Ring"] = .ok synthesis ∧
    (Emission.targets Reader.language {} synthesis [.publicCopy, .privateCopy]).Nodup ∧
    (Emission.targets Reader.language {} synthesis [.zeroPredicate]).Nodup := by
  have h : ring.generate Reader.language {} ["Ring"] = .ok _ := rfl
  obtain ⟨synthesis, hs, _, _, _, _, hbare⟩ := targets_of_generate h
  have hring : ring.Bare Reader.language := by
    unfold Bare
    decide +kernel
  exact ⟨_, synthesis, h, hs, hbare hring⟩

/-- Two types and, in each of them, two fields whose names differ by white space alone. -/
def twins : Table where
  entries := [("Image", .capability),
    ("Icon", .type (.record [("image", .named "Image"), ("image ", .named "Image")])),
    ("Icon ", .type (.record [("image", .named "Image"), ("image ", .named "Image")]))]
  distinct_names := by decide
  distinct_fields := by
    simp [Definition.Distinct, Definition.capability, Shape.Distinct, Ref.FieldsDistinct,
      Ref.Distinct]

/-- The check lets both spellings pass, and one type receives two copies and two predicates. -/
theorem targets_twins : twins.validate Reader.language = .ok () ∧
    ∃ source synthesis, twins.generate Reader.language {} ["Icon", "Icon "] = .ok source ∧
      twins.synthesize Reader.language {} ["Icon", "Icon "] = .ok synthesis ∧
      Emission.targets Reader.language {} synthesis [.publicCopy, .privateCopy] = ["Icon", "Icon"] ∧
      Emission.targets Reader.language {} synthesis [.zeroPredicate] = ["Icon", "Icon"] ∧
      ∃ method ∈ synthesis.methods, ∃ own others members,
        Emission.blocksOf Reader.language {} method = own :: others ∧
        own.method.body = .record [.word "Self"] members true ∧
        members.filterMap Code.Member.name? = ["image", "image"] := by
  have h : twins.generate Reader.language {} ["Icon", "Icon "] = .ok _ := rfl
  have hs : twins.synthesize Reader.language {} ["Icon", "Icon "] = .ok _ := rfl
  exact ⟨by decide +kernel, _, _, h, hs, by decide +kernel, by decide +kernel, _,
    List.mem_cons_self, _, _, _, rfl, rfl, by decide +kernel⟩

end Table

end CopySynth
