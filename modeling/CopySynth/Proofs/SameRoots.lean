import CopySynth.Proofs.AliasTransparency
import CopySynth.Proofs.Budgets
import CopySynth.Proofs.OneClassifier
import Mathlib.Data.List.Sort

/-!
# Only the canonical roots count

Requests are taken in ascending order, each once, so that their order and repetition make no
difference at all. When two lists of requests differ in the aliases they use, their canonical types
come up in another order, and with them the queues, the bodies and what a classifier remembers. The
methods are the same all the same, because the roots fix which methods there are and each body is
the one its type gets by itself.
-/

namespace CopySynth

theorem ascending_congr {names others : List String} (h : ∀ name, name ∈ names ↔ name ∈ others) :
    ascending names = ascending others :=
  (pairwise_ascending names).eq_of_mem_iff (pairwise_ascending others) fun name => by
    rw [mem_ascending, mem_ascending, h]

/-- Both runs fail, or both make the same methods and note the same interfaces, in any order. -/
def SameUpToOrder : Except GenerationError Synthesis → Except GenerationError Synthesis → Prop :=
  SameOutcome fun synthesis other =>
    synthesis.methods.Perm other.methods ∧ synthesis.capabilities.Perm other.capabilities

/-- The body of a method is the one its type gets by itself, from a classifier that was asked
nothing and with nothing queued. -/
def Table.MadeAlone (table : Table) (method : Method) : Prop :=
  match method.body with
  | .copy body => (table.requestCopy method.type .empty).1 = .ok body ∧
      ((Remembering.copyBody table method.type).run {}).1 = .ok body
  | .zero body => (table.requestZero method.type .empty).1 = .ok (some body) ∧
      ((Remembering.zeroBody table method.type).run {}).1 = .ok (some body)

namespace Table

variable {table : Table} {language : Code.Language} {config : Config} {roots others : List String}

/-! ## Canonical roots -/

/-- The roots are the canonical names of the requests that name no builtin. -/
theorem mem_rootNames_iff {name : String} :
    name ∈ table.rootNames roots ↔
      name ∈ roots.filterMap table.canonical? ∧ table.namesBuiltin name = false := by
  simp only [rootNames, List.mem_eraseDups, List.mem_filterMap, mem_ascending]
  constructor
  · rintro ⟨root, hr, hroot⟩
    unfold rootName? at hroot
    split at hroot
    · rename_i canonical shape hfound
      split at hroot
      · cases hroot
      · rename_i hb
        cases hroot
        rw [namesBuiltin_eq (get?_of_resolve hfound)]
        exact ⟨⟨root, hr, canonical?_of_resolve hfound⟩, by simpa using hb⟩
    · cases hroot
  · rintro ⟨⟨root, hr, hc⟩, hb⟩
    obtain ⟨shape, hfound⟩ := resolve_of_canonical? "root list" hc
    rw [namesBuiltin_eq (get?_of_resolve hfound)] at hb
    exact ⟨root, hr, by rw [rootName?, hfound]; simp [hb]⟩

theorem rootNames_congr
    (h : ∀ name, name ∈ roots.filterMap table.canonical? ↔ name ∈ others.filterMap table.canonical?)
    (name : String) : name ∈ table.rootNames roots ↔ name ∈ table.rootNames others := by
  rw [mem_rootNames_iff, mem_rootNames_iff, h]

/-- A run succeeds for all lists of requests with the same canonical names, or for none. -/
theorem exists_synthesize_congr (hr : ∀ root ∈ roots, (table.canonical? root).isSome)
    (ho : ∀ root ∈ others, (table.canonical? root).isSome)
    (hs : ∀ name, name ∈ table.rootNames roots ↔ name ∈ table.rootNames others) :
    (∃ synthesis, table.synthesize language config roots = .ok synthesis) ↔
      ∃ synthesis, table.synthesize language config others = .ok synthesis := by
  have hresolve {names : List String} (h : ∀ name ∈ names, (table.canonical? name).isSome) :
      ∀ name ∈ names, ∃ found, table.resolve name "root list" = .ok found := by
    intro name hn
    obtain ⟨canonical, hc⟩ := Option.isSome_iff_exists.mp (h name hn)
    obtain ⟨shape, hfound⟩ := resolve_of_canonical? "root list" hc
    exact ⟨_, hfound⟩
  rw [exists_synthesize_iff, exists_synthesize_iff]
  exact ⟨.congr hs (hresolve ho), .congr (fun name => (hs name).symm) (hresolve hr)⟩

/-! ## Finished runs -/

theorem perm_of_synthesize {synthesis other : Synthesis}
    (h : table.synthesize language config roots = .ok synthesis)
    (ho : table.synthesize language config others = .ok other)
    (hs : ∀ name, name ∈ table.rootNames roots ↔ name ∈ table.rootNames others) :
    synthesis.methods.Perm other.methods ∧ synthesis.capabilities.Perm other.capabilities := by
  constructor
  · refine (List.perm_ext_iff_of_nodup (nodup_methods_of_synthesize h)
      (nodup_methods_of_synthesize ho)).mpr fun method => ?_
    rw [mem_methods_iff h, mem_methods_iff ho]
    exact ⟨.congr hs, .congr fun name => (hs name).symm⟩
  · obtain ⟨hn, hmem⟩ := capabilities_of_synthesize h
    obtain ⟨hn', hmem'⟩ := capabilities_of_synthesize ho
    refine (List.perm_ext_iff_of_nodup hn hn').mpr fun capability => ?_
    rw [hmem, hmem']
    exact ⟨.congr hs, .congr fun name => (hs name).symm⟩

theorem Makes.madeAlone {method : Method} (h : table.Makes (table.rootNames roots) method) :
    table.MadeAlone method := by
  have hcopy {type : String} {body : CopyBody} (hb : table.copyBody type = .ok body) :
      ((Remembering.copyBody table type).run {}).1 = .ok body := by
    obtain ⟨after, hrun, _⟩ := Remembering.keeps_copyBody type {} soundMemory_empty rfl
    rw [hrun, hb]
  cases h with
  | publicCopy _ hb | privateCopy _ _ hb => exact ⟨hb, hcopy hb⟩
  | zeroPredicate hb _ =>
    obtain ⟨after, hrun, _⟩ := Remembering.keeps_zeroBody _ {} soundMemory_empty rfl
    exact ⟨hb, by rw [hrun, hb]⟩

/-- A run depends only on which canonical types are requested. The order and repetition of requests
make no difference; neither does it, up to the order of the methods and of the interfaces, by which
names the types are requested, as long as these lead to types. Each body is the one its type gets by
itself, and a single classifier for the whole run gives the same result. -/
theorem synthesize_of_same_roots (table : Table) (language : Code.Language) (config : Config)
    (roots others : List String) :
    ((∀ name, name ∈ roots ↔ name ∈ others) →
      table.synthesize language config roots = table.synthesize language config others) ∧
    ((∀ name ∈ roots, (table.canonical? name).isSome) →
      (∀ name ∈ others, (table.canonical? name).isSome) →
      (∀ name, name ∈ roots.filterMap table.canonical? ↔
        name ∈ others.filterMap table.canonical?) →
      SameUpToOrder (table.synthesize language config roots)
        (table.synthesize language config others)) ∧
    (∀ synthesis, table.synthesize language config roots = .ok synthesis →
      ∀ method ∈ synthesis.methods, table.MadeAlone method) ∧
    ((Remembering.synthesize table language config roots).run {}).1 =
      table.synthesize language config roots := by
  refine ⟨fun h => ?_, fun hr ho hs => ?_, fun synthesis h method hm => ?_,
    Remembering.synthesize_eq table language config roots⟩
  · rw [synthesize, synthesize, synthesizeWithin, synthesizeWithin, makeMethods, makeMethods,
      ascending_congr h]
  · have hsame := rootNames_congr hs
    exact SameOutcome.of_iff (exists_synthesize_congr hr ho hsame) fun _ _ h h' =>
      perm_of_synthesize h h' hsame
  · exact ((mem_methods_iff h).mp hm).madeAlone

/-- By its alias the node is requested before the ring, by its own name after it. -/
theorem synthesize_of_same_roots_ring :
    ring.synthesize Reader.language {} ["Ring", "Link", "Ring"] =
        ring.synthesize Reader.language {} ["Link", "Ring"] ∧
      SameUpToOrder (ring.synthesize Reader.language {} ["Ring", "Link"])
        (ring.synthesize Reader.language {} ["Ring", "Node"]) ∧
      ∃ synthesis, ring.synthesize Reader.language {} ["Ring", "Link"] = .ok synthesis ∧
        ∀ method ∈ synthesis.methods, ring.MadeAlone method := by
  have hspelled := synthesize_of_same_roots ring Reader.language {} ["Ring", "Link"] ["Ring", "Node"]
  have hroots : ["Ring", "Link"].filterMap ring.canonical? = ["Ring", "Node"] := by decide +kernel
  have hothers : ["Ring", "Node"].filterMap ring.canonical? = ["Ring", "Node"] := by decide +kernel
  have hnames := synthesize_of_same_roots ring Reader.language {} ["Ring", "Link", "Ring"]
    ["Link", "Ring"]
  refine ⟨hnames.1 ?_,
    hspelled.2.1 (by decide +kernel) (by decide +kernel) (by rw [hroots, hothers]; simp),
    _, rfl, hspelled.2.2.1 _ rfl⟩
  simp [or_comm]

end Table

end CopySynth
