import CopySynth.Proofs.Freshness
import Mathlib.Data.List.Nodup

/-!
# Overriding fields

A record whose fields are replaced one by one keeps the order of its names. When the replaced fields
are new values and the others have no cells, the whole record is new, in whatever order the fields
were replaced.
-/

namespace CopySynth

namespace Fields

variable {α : Type}

/-- Replaces fields one by one. -/
def override (fields results : Fields α) : Fields α :=
  results.foldl (fun fields result => fields.put result.1 result.2) fields

theorem names_override {fields results : Fields α} (h : ∀ n ∈ results.names, n ∈ fields.names) :
    (fields.override results).names = fields.names := by
  induction results generalizing fields with
  | nil => rfl
  | cons result results ih =>
    have hput : (fields.put result.1 result.2).names = fields.names := by
      rw [names_put, if_pos (h _ (by simp))]
    have hrest : ∀ n ∈ names results, n ∈ (fields.put result.1 result.2).names := by
      intro n hn
      rw [hput]
      exact h n (by simp [hn])
    exact (ih hrest).trans hput

/-- A field that is replaced once has the new thing; the others are as they were. -/
theorem get?_override {fields results : Fields α} (hn : results.names.Nodup) (name : String) :
    (fields.override results).get? name = (results.get? name).or (fields.get? name) := by
  induction results generalizing fields with
  | nil => rfl
  | cons result results ih =>
    obtain ⟨other, new⟩ := result
    rw [names_cons, List.nodup_cons] at hn
    rw [get?_cons]
    refine (@ih (fields.put other new) hn.2).trans ?_
    by_cases ho : name = other
    · subst ho
      rw [(get?_eq_none_iff _ _).mpr hn.1, get?_put_self]
      simp
    · rw [get?_put_of_ne _ _ ho]
      simp [ho]

/-- The fields that were replaced are the replacements, in the order of the record. -/
theorem filter_override_perm {fields results : Fields α} (hfields : fields.names.Nodup)
    (hresults : results.names.Nodup) (hin : ∀ n ∈ results.names, n ∈ fields.names) :
    ((fields.override results).filter fun field => field.1 ∈ results.names).Perm results := by
  have hdistinct : (fields.override results).names.Nodup := by rwa [names_override hin]
  refine (List.perm_ext_iff_of_nodup ?_ ?_).mpr fun field => ?_
  · exact (List.Nodup.of_map _ hdistinct).filter _
  · exact List.Nodup.of_map _ hresults
  rw [List.mem_filter, decide_eq_true_eq]
  constructor
  · rintro ⟨hf, hn⟩
    obtain ⟨new, hnew⟩ := Option.isSome_iff_exists.mp ((get?_isSome_iff _ _).mpr hn)
    have hf := get?_of_mem hdistinct hf
    rw [get?_override hresults, hnew] at hf
    exact mem_of_get? (hnew.trans hf)
  · intro hf
    have hnew : results.get? field.1 = some field.2 := get?_of_mem hresults hf
    have hf' : (fields.override results).get? field.1 = some field.2 := by
      rw [get?_override hresults, hnew]
      rfl
    exact ⟨mem_of_get? hf', List.mem_map.mpr ⟨field, hf, rfl⟩⟩

/-- Two records with the same names agree with the same list field by field. -/
theorem forall₂_of_names {β : Type} {R S : α → β → Prop} {fields others : Fields α} {ys : List β}
    (hn : others.names = fields.names) (h : List.Forall₂ R (fields.map Prod.snd) ys)
    (hs : ∀ name x x' y, (name, x) ∈ fields → (name, x') ∈ others → R x y → S x' y) :
    List.Forall₂ S (others.map Prod.snd) ys := by
  induction fields generalizing others ys with
  | nil =>
    cases others with
    | nil =>
      cases h
      exact .nil
    | cons => simp at hn
  | cons field fields ih =>
    cases others with
    | nil => simp at hn
    | cons other others =>
      obtain ⟨name, x⟩ := field
      obtain ⟨name', x'⟩ := other
      simp only [names_cons, List.cons.injEq] at hn
      obtain ⟨rfl, hn⟩ := hn
      cases h with
      | cons hr hrest =>
        refine .cons (hs name' x x' _ (by simp) (by simp) hr) (ih hn hrest ?_)
        intro name x x' y hx hx'
        exact hs name x x' y (List.mem_cons_of_mem _ hx) (List.mem_cons_of_mem _ hx')

end Fields

namespace Heap

variable {base before after : Heap}

/-- A record is new when its replaced fields are and the others have no cells. -/
theorem fresh_override {fields results : Fields Value} {contents made : List Content}
    (hfields : fields.names.Nodup) (hresults : results.names.Nodup)
    (hin : ∀ n ∈ results.names, n ∈ fields.names)
    (hmade : AllFresh before made (results.map Prod.snd) after)
    (hcontents : List.Forall₂ base.Stores (fields.map Prod.snd) contents)
    (hsame : ∀ name part result content, (name, part) ∈ fields → (name, result) ∈ results →
      base.Stores part content → after.Stores result content)
    (hkept : ∀ name part content, (name, part) ∈ fields → name ∉ results.names →
      base.Stores part content → after.Stores part content ∧ after.storage part = []) :
    Fresh before (.record (fields.names.zip contents)) (.record (fields.override results))
      after := by
  have hnames := Fields.names_override hin
  have hdistinct : (fields.override results).names.Nodup := by rwa [hnames]
  have hget : ∀ name, (fields.override results).get? name =
      (results.get? name).or (fields.get? name) := Fields.get?_override hresults
  have hstores : List.Forall₂ after.Stores ((fields.override results).map Prod.snd) contents := by
    -- a field is the replacement of its name if there is one, and what it was otherwise
    refine Fields.forall₂_of_names hnames hcontents fun name part result content hp hr hc => ?_
    have hr := Fields.get?_of_mem hdistinct hr
    rw [hget, Fields.get?_of_mem hfields hp] at hr
    cases hnew : results.get? name with
    | some new =>
      rw [hnew] at hr
      cases hr
      exact hsame name part result content hp (Fields.mem_of_get? hnew) hc
    | none =>
      rw [hnew] at hr
      cases hr
      exact (hkept name part content hp ((Fields.get?_eq_none_iff _ _).mp hnew) hc).1
  have hrecord : after.Stores (.record (fields.override results))
      (.record (fields.names.zip contents)) :=
    stores_iff.mpr ⟨contents, hstores, by rw [Value.assemble, hnames]⟩
  -- the cells come in the order of the record, not in the order they were allocated
  have hempty : ∀ field ∈ fields.override results,
      decide (field.1 ∈ results.names) = false → after.storage field.2 = [] := by
    intro field hf hn
    have hn : field.1 ∉ results.names := by simpa using hn
    have hf := Fields.get?_of_mem hdistinct hf
    rw [hget, (Fields.get?_eq_none_iff _ _).mpr hn, Option.none_or] at hf
    have hp := Fields.mem_of_get? hf
    obtain ⟨content, _, hc⟩ := exists_of_mem_left hcontents (List.mem_map.mpr ⟨_, hp, rfl⟩)
    exact (hkept _ _ _ hp hn hc).2
  have hstorage : (after.storage (.record (fields.override results))).Perm
      ((results.map Prod.snd).flatMap after.storage) := by
    rw [hrecord.storage_eq, parts, List.flatMap_map, List.flatMap_map, ← flatMap_filter_eq hempty]
    exact (Fields.filter_override_perm hfields hresults hin).flatMap_right _
  refine ⟨hmade.grows, hrecord, fun a ha => hmade.cells a (hstorage.mem_iff.mp ha), ?_⟩
  exact hstorage.nodup_iff.mpr hmade.distinct

end Heap

end CopySynth
