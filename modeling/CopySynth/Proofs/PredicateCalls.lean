import CopySynth.Proofs.MadeMethods
import CopySynth.Proofs.TableCheck

/-!
# Which methods call each other

The zero predicate of a type calls those of its constituents that are records or sequences of fixed
length. A value holds these in place, under one or more names, so a call leads down to a held type.
In a table that passes its check every way down ends, and with it every chain of such calls: a
growable sequence, which is how a type can lead back to itself, is tested where it stands.

Copies have no such bound. The copy of a type calls the helper of a growable sequence as well, and
so two copies may call each other.
-/

namespace CopySynth

namespace Synthesis

/-- The zero predicate of one type calls that of another. -/
def Delegates (synthesis : Synthesis) (caller type : String) : Prop :=
  ∃ predicate ∈ synthesis.predicates, predicate.1 = caller ∧ type ∈ predicate.2.delegates

/-- The copy of one type calls the copy helper of another. -/
def CallsHelper (synthesis : Synthesis) (caller type : String) : Prop :=
  ∃ copy ∈ synthesis.copies, copy.1 = caller ∧ type ∈ copy.2.helpers

instance (synthesis : Synthesis) (caller type : String) :
    Decidable (synthesis.Delegates caller type) :=
  inferInstanceAs (Decidable (∃ predicate ∈ synthesis.predicates, _))

instance (synthesis : Synthesis) (caller type : String) :
    Decidable (synthesis.CallsHelper caller type) :=
  inferInstanceAs (Decidable (∃ copy ∈ synthesis.copies, _))

end Synthesis

/-- A type that can have a predicate holds in place what its constituents use. -/
theorem Definition.holds_of_slot {shape : Shape} (hp : shape.hasPredicate = true)
    {slot : String × Ref} (hs : slot ∈ shape.slots) {name : String} (hu : slot.2.Uses name) :
    (Definition.type shape).Holds name := by
  cases shape with
  | builtin | dynamic => cases hp
  | fixed =>
    cases List.mem_singleton.mp hs
    exact .fixed hu
  | record => exact .field hs hu

namespace Table

variable {table : Table} {language : Code.Language} {config : Config} {roots : List String}
  {synthesis : Synthesis}

/-- A predicate calls only the predicates of types that its own type holds, directly or through
their other names. -/
theorem transGen_of_mem_delegates {caller type : String} {body : ZeroBody}
    (h : table.zeroBody caller = .ok (some body)) (hm : type ∈ body.delegates) :
    Relation.TransGen table.Holds caller type := by
  obtain ⟨shape, hg, hp, slot, hs, part, found, hpart, hl, _⟩ := leadsTo_of_mem_delegates h hm
  have hu : slot.2.Uses part := by
    rw [hpart]
    exact .named
  have hh : table.Holds caller part := ⟨_, hg, Definition.holds_of_slot hp hs hu⟩
  exact .head' hh hl.reaches

theorem transGen_of_delegates (h : table.synthesize language config roots = .ok synthesis)
    {caller type : String} (hd : synthesis.Delegates caller type) :
    Relation.TransGen table.Holds caller type := by
  obtain ⟨⟨_, body⟩, hp, rfl, hm⟩ := hd
  exact transGen_of_mem_delegates ((mem_predicates_of_synthesize h).mp hp) hm

/-- Every chain of calls between predicates ends. -/
theorem wellFounded_delegates (hv : table.validate language = .ok ())
    (h : table.synthesize language config roots = .ok synthesis) :
    WellFounded fun type caller => synthesis.Delegates caller type := by
  have hdown : WellFounded (Relation.TransGen fun part owner => table.Holds owner part) :=
    (wellFounded_holds hv).transGen
  refine Subrelation.wf (fun {type caller} hd => ?_) hdown
  exact Relation.transGen_swap.mpr (transGen_of_delegates h hd)

theorem not_transGen_delegates (hv : table.validate language = .ok ())
    (h : table.synthesize language config roots = .ok synthesis) (type : String) :
    ¬ Relation.TransGen synthesis.Delegates type type := by
  intro hr
  have hheld : Relation.TransGen table.Holds type type :=
    Relation.TransGen.closed (fun _ _ hd => transGen_of_delegates h hd) _ _ hr
  exact (validate_eq_ok_iff.mp hv).2.2 type hheld

/-- In the ring the predicate of the ring calls that of its nodes, and the copies of the nodes and of
the sequence of nodes call each other. -/
theorem ring_calls :
    ∃ synthesis, ring.validate Reader.language = .ok () ∧
      ring.synthesize Reader.language {} ["Ring"] = .ok synthesis ∧
      synthesis.Delegates "Ring" "Node" ∧
      Relation.TransGen synthesis.CallsHelper "Node" "Node" := by
  refine ⟨ringMethods, validate_ring, synthesize_ring, by decide +kernel, ?_⟩
  apply Relation.TransGen.tail (b := "Nodes")
  · exact .single (by decide +kernel)
  · decide +kernel

/-- The predicates of a finished run over a table that passes its check do not call each other in a
circle, so every chain of their calls ends. The copies of such a run may call each other in a
circle. -/
theorem predicateCalls_end :
    (∀ (table : Table) (language : Code.Language) (config : Config) (roots : List String)
      (synthesis : Synthesis), table.validate language = .ok () →
      table.synthesize language config roots = .ok synthesis →
      (∀ type, ¬ Relation.TransGen synthesis.Delegates type type) ∧
        WellFounded fun type caller => synthesis.Delegates caller type) ∧
    ∃ (table : Table) (language : Code.Language) (config : Config) (roots : List String)
      (synthesis : Synthesis), table.validate language = .ok () ∧
      table.synthesize language config roots = .ok synthesis ∧
      ∃ type, Relation.TransGen synthesis.CallsHelper type type := by
  constructor
  · intro table language config roots synthesis hv h
    exact ⟨not_transGen_delegates hv h, wellFounded_delegates hv h⟩
  · obtain ⟨synthesis, hv, h, _, hcircle⟩ := ring_calls
    exact ⟨ring, Reader.language, {}, ["Ring"], synthesis, hv, h, "Node", hcircle⟩

/-- The node whose copy calls itself by way of its sequence has a predicate that is called and does
not. -/
theorem predicateCalls_end_ring :
    ∃ synthesis, ring.validate Reader.language = .ok () ∧
      ring.synthesize Reader.language {} ["Ring"] = .ok synthesis ∧
      synthesis.Delegates "Ring" "Node" ∧ Relation.TransGen synthesis.CallsHelper "Node" "Node" ∧
      ¬ Relation.TransGen synthesis.Delegates "Node" "Node" := by
  obtain ⟨synthesis, hv, h, hd, hcircle⟩ := ring_calls
  obtain ⟨hnone, _⟩ := predicateCalls_end.1 ring Reader.language {} ["Ring"] synthesis hv h
  exact ⟨synthesis, hv, h, hd, hcircle, hnone "Node"⟩

end Table

end CopySynth
