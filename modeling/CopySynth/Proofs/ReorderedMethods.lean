import CopySynth.Proofs.Budgets
import CopySynth.Proofs.ReorderedBodies

/-!
# Methods of reordered types

In tables that pass their checks and differ at most in the order of fields, the same copies are
needed, the same predicates delegate to each other and the same interfaces are called. So a run
succeeds over both or over neither, and makes methods that differ at most in the order of the fields
in their bodies.
-/

namespace CopySynth

/-- Two bodies of a kind differ at most in the order of fields. -/
inductive MethodBody.Reordered : MethodBody → MethodBody → Prop
  | copy {body other : CopyBody} (h : body.Reordered other) : Reordered (.copy body) (.copy other)
  | zero {body other : ZeroBody} (h : body.Reordered other) : Reordered (.zero body) (.zero other)

/-- Two methods are made for the same type and differ at most in the order of fields. -/
structure Method.Reordered (method other : Method) : Prop where
  type : other.type = method.type
  family : other.family = method.family
  discovered : other.discovered = method.discovered
  body : method.body.Reordered other.body

namespace Table.Reordered

variable {table other : Table} {language : Code.Language} {starts : List String} {type : String}

theorem hasPredicate_eq (h : table.Reordered other) (type : String) :
    other.hasPredicate type = table.hasPredicate type := by
  have hle {table other : Table} (h : table.Reordered other) (hp : table.hasPredicate type = true) :
      other.hasPredicate type = true := by
    obtain ⟨shape, hg, hs⟩ := hasPredicate_eq_true_iff.mp hp
    obtain ⟨found, hg', hr⟩ := h.get?_type hg
    exact hasPredicate_eq_true_iff.mpr ⟨found, hg', by rw [hr.hasPredicate_eq, hs]⟩
  exact Bool.eq_iff_iff.mpr ⟨hle h.symm, hle h⟩

variable (hv : table.validate language = .ok ()) (hv' : other.validate language = .ok ())
  (h : table.Reordered other)
include hv hv' h

theorem zeroBody_some {body : ZeroBody} (hb : table.zeroBody type = .ok (some body)) :
    ∃ found, other.zeroBody type = .ok (some found) ∧ body.Reordered found := by
  obtain ⟨_, hf, hr⟩ := h.zeroBody hv hv' hb
  cases hr with
  | some hr => exact ⟨_, hf, hr⟩

theorem copyNeeded (hn : table.CopyNeeded starts type) : other.CopyNeeded starts type := by
  induction hn with
  | start hs => exact .start hs
  | call _ hb hc ih =>
    obtain ⟨found, hf, hr⟩ := h.copyBody hv hv' hb
    exact .call ih hf (hr.helpers.mem_iff.mp hc)

theorem cloneNeeded {capability : String} (hc : table.CloneNeeded starts capability) :
    other.CloneNeeded starts capability := by
  obtain ⟨caller, body, hn, hb, hc⟩ := hc
  obtain ⟨found, hf, hr⟩ := h.copyBody hv hv' hb
  exact ⟨caller, found, h.copyNeeded hv hv' hn, hf, hr.capabilities.mem_iff.mp hc⟩

theorem delegated (hd : table.Delegated type) : other.Delegated type := by
  obtain ⟨caller, body, hb, hd⟩ := hd
  obtain ⟨found, hf, hr⟩ := h.zeroBody_some hv hv' hb
  exact ⟨caller, found, hf, hr.delegates.mem_iff.mp hd⟩

/-- Each method has its counterpart in the other table. -/
theorem makes {method : Method} (hm : table.Makes starts method) :
    ∃ found, other.Makes starts found ∧ method.Reordered found := by
  cases hm with
  | publicCopy hr hb =>
    obtain ⟨found, hf, hs⟩ := h.copyBody hv hv' hb
    exact ⟨_, .publicCopy hr hf, rfl, rfl, rfl, .copy hs⟩
  | privateCopy hn hr hb =>
    obtain ⟨found, hf, hs⟩ := h.copyBody hv hv' hb
    exact ⟨_, .privateCopy (h.copyNeeded hv hv' hn) hr hf, rfl, rfl, rfl, .copy hs⟩
  | @zeroPredicate type _ _ hb hd =>
    obtain ⟨found, hf, hs⟩ := h.zeroBody_some hv hv' hb
    have hdelegated : table.Delegated type ↔ other.Delegated type :=
      ⟨h.delegated hv hv', h.symm.delegated hv' hv⟩
    exact ⟨_, .zeroPredicate hf (hd.trans (and_congr_right fun _ => hdelegated)), rfl, rfl, rfl,
      .zero hs⟩

variable {config : Config} {roots : List String}

theorem succeeds (hs : table.Succeeds language config roots) :
    other.Succeeds language config roots where
  check _ := hv'
  requests root hr := by
    obtain ⟨⟨name, shape⟩, hfound⟩ := hs.requests root hr
    obtain ⟨found, hf, _⟩ := h.resolve hfound
    exact ⟨_, hf⟩
  copies type hn := by
    rw [h.rootNames_eq] at hn
    obtain ⟨body, hb⟩ := hs.copies type (h.symm.copyNeeded hv' hv hn)
    obtain ⟨found, hf, _⟩ := h.copyBody hv hv' hb
    exact ⟨found, hf⟩
  zeros type hp := by
    rw [h.hasPredicate_eq] at hp
    obtain ⟨body, hb⟩ := hs.zeros type hp
    obtain ⟨found, hf, _⟩ := h.zeroBody hv hv' hb
    exact ⟨found, hf⟩
  copyBudget types hn ht := by
    rw [h.rootNames_eq] at ht
    rw [h.size_eq]
    exact hs.copyBudget types hn fun type hm => (ht type hm).imp_left (h.symm.copyNeeded hv' hv)
  zeroBudget := by
    rw [h.seeds_eq, h.rootNames_eq, h.size_eq]
    exact hs.zeroBudget

/-- A run succeeds over both tables or over neither. -/
theorem exists_synthesize_iff :
    (∃ synthesis, table.synthesize language config roots = .ok synthesis) ↔
      ∃ synthesis, other.synthesize language config roots = .ok synthesis := by
  rw [Table.exists_synthesize_iff, Table.exists_synthesize_iff]
  exact ⟨h.succeeds hv hv', h.symm.succeeds hv' hv⟩

variable {synthesis found : Synthesis} (hs : table.synthesize language config roots = .ok synthesis)
  (hs' : other.synthesize language config roots = .ok found)
include hs hs'

/-- Each method of a finished run has its counterpart in the other run. -/
theorem exists_method {method : Method} (hm : method ∈ synthesis.methods) :
    ∃ counterpart ∈ found.methods, method.Reordered counterpart := by
  obtain ⟨counterpart, hmakes, hr⟩ := h.makes hv hv' ((mem_methods_iff hs).mp hm)
  rw [← h.rootNames_eq] at hmakes
  exact ⟨counterpart, (mem_methods_iff hs').mpr hmakes, hr⟩

theorem capabilities_perm : synthesis.capabilities.Perm found.capabilities := by
  obtain ⟨hn, hmem⟩ := capabilities_of_synthesize hs
  obtain ⟨hn', hmem'⟩ := capabilities_of_synthesize hs'
  refine (List.perm_ext_iff_of_nodup hn hn').mpr fun capability => ?_
  rw [hmem, hmem', h.rootNames_eq]
  exact ⟨h.cloneNeeded hv hv', h.symm.cloneNeeded hv' hv⟩

/-- A type with a copy in one run has one in the other, with the fields in the order of its
definition there. -/
theorem copyBody? {body : CopyBody} (hb : synthesis.copyBody? type = some body) :
    ∃ counterpart, found.copyBody? type = some counterpart ∧ body.Reordered counterpart := by
  rw [Synthesis.copyBody?_eq_get?] at hb
  obtain ⟨hn, hb⟩ := (mem_copies_of_synthesize hs).mp (Fields.mem_of_get? hb)
  obtain ⟨counterpart, hf, hr⟩ := h.copyBody hv hv' hb
  rw [← h.rootNames_eq] at hn
  have hm := (mem_copies_of_synthesize hs').mpr ⟨h.copyNeeded hv hv' hn, hf⟩
  refine ⟨counterpart, ?_, hr⟩
  rw [Synthesis.copyBody?_eq_get?]
  exact Fields.get?_of_mem (copyTypes_of_synthesize hs').1 hm

end Table.Reordered

end CopySynth
