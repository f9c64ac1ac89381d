import CopySynth.Proofs.OneClassifier
import CopySynth.Proofs.UnnamedStorage
import CopySynth.Proofs.ZeroValues

/-!
# Larger tables

A table within another one is closed when it passes its check: its names lead to the same types in
both, which own the same storage. So the copies and the zero predicates of its types, and their zero
values, are the same over both tables.
-/

namespace CopySynth

theorem mapM_congr_of_mem {α β ε : Type} {f g : α → Except ε β} {xs : List α}
    (h : ∀ x ∈ xs, f x = g x) : xs.mapM f = xs.mapM g := by
  rw [← mapM_map_congr (g := id) (f := f) h, List.map_id]

namespace Table

variable {table other : Table} {language : Code.Language} {name canonical : String}
  {shape : Shape} {ref : Ref}

/-- All types of the table are types of the other one, defined alike. -/
def Within (table other : Table) : Prop := table.entries ⊆ other.entries

namespace Within

theorem get? (h : table.Within other) {type : Definition} (hg : table.get? name = some type) :
    other.get? name = some type :=
  get?_eq_some_iff.mpr (h (get?_eq_some_iff.mp hg))

theorem get?_eq (h : table.Within other) (hn : name ∈ table.names) :
    other.get? name = table.get? name := by
  obtain ⟨type, hg⟩ := Option.isSome_iff_exists.mp ((table.get?_isSome_iff name).mpr hn)
  rw [hg, h.get? hg]

theorem mem_names (h : table.Within other) (hn : name ∈ table.names) : name ∈ other.names :=
  List.map_subset _ h hn

theorem size_le (h : table.Within other) : table.size ≤ other.size := by
  rw [← table.names_length]
  exact length_le_size table.distinct_names fun _ hn => h.mem_names hn

theorem leadsTo (h : table.Within other) (hl : table.LeadsTo name canonical shape) :
    other.LeadsTo name canonical shape := by
  induction hl with
  | type hg => exact .type (h.get? hg)
  | aliased hg _ ih => exact .aliased (h.get? hg) ih

section Sound

variable (h : table.Within other) (hv : table.validate language = .ok ())
  (hv' : other.validate language = .ok ())
include h hv hv'

theorem resolve_eq (hn : name ∈ table.names) (context : String) :
    other.resolve name context = table.resolve name context := by
  obtain ⟨canonical, shape, hr⟩ := exists_resolve_of_validate hv hn context
  obtain ⟨canonical', shape', hr'⟩ := exists_resolve_of_validate hv' (h.mem_names hn) context
  obtain ⟨rfl, rfl⟩ := (h.leadsTo (leadsTo_of_resolve hr)).unique (leadsTo_of_resolve hr')
  rw [hr, hr']

/-! ## Storage -/

omit hv' in
theorem owning_iff (hn : name ∈ table.names) : other.Owning name ↔ table.Owning name := by
  have hclosed : table.Closed := (validate_eq_ok_iff.mp hv).1
  constructor
  · intro ho
    induction ho with
    | @owner name type hg ho => exact .owner (h.get?_eq hn ▸ hg) ho
    | @part name part hh _ ih =>
      obtain ⟨type, hg, hh⟩ := hh
      rw [h.get?_eq hn] at hg
      exact .part ⟨type, hg, hh⟩ (ih (hclosed name type part hg hh.uses))
  · intro ho
    induction ho with
    | owner hg ho => exact .owner (h.get? hg) ho
    | part hh _ ih =>
      obtain ⟨type, hg, hh⟩ := hh
      exact .part ⟨type, h.get? hg, hh⟩ (ih (hclosed _ type _ hg hh.uses))

/-- The classifiers of both tables give the same answers about references to types of the smaller
one. -/
theorem isValue_eq (hr : ∀ name, ref.Uses name → name ∈ table.names) (context : String) :
    other.isValue ref context = table.isValue ref context := by
  refine isValue_congr hv hv' hr (fun name hu => h.mem_names (hr name hu)) ?_ context
  exact exists_congr fun name => and_congr_right fun hu => h.owning_iff hv (hr name hu)

theorem isValueName_eq (hn : name ∈ table.names) (context : String) :
    other.isValueName name context = table.isValueName name context :=
  h.isValue_eq hv hv' (fun _ hu => uses_named_iff.mp hu ▸ hn) context

/-! ## Copies -/

theorem elementCopy_eq (hr : ∀ name, ref.Uses name → name ∈ table.names) (owner slot : String) :
    other.elementCopy owner slot ref = table.elementCopy owner slot ref := by
  unfold elementCopy
  dsimp only
  rw [h.isValue_eq hv hv' hr]
  cases ref with
  | inline fields => rfl
  | named target => simp only [h.resolve_eq hv hv' (hr target .named)]

theorem spelledCopy_eq {owner : String} (hg : table.get? owner = some (.type shape)) :
    other.spelledCopy owner shape = table.spelledCopy owner shape := by
  have hslots : ∀ slot ∈ shape.slots,
      other.elementCopy owner slot.1 slot.2 = table.elementCopy owner slot.1 slot.2 :=
    fun slot hs => h.elementCopy_eq hv hv' (mem_names_of_slot hv hg hs) owner slot.1
  cases shape with
  | builtin => rfl
  | fixed length element | dynamic element =>
    rw [spelledCopy, spelledCopy, hslots _ (List.mem_singleton_self _)]
  | record fields =>
    rw [spelledCopy, spelledCopy]
    congr 1
    exact mapM_congr_of_mem fun field hf => by dsimp only; rw [hslots field hf]

theorem copyBody_eq (hn : name ∈ table.names) : other.copyBody name = table.copyBody name := by
  unfold copyBody
  rw [h.resolve_eq hv hv' hn]
  cases hr : table.resolve name "copy request" with
  | error fault => simp only [lifted, error_bind]
  | ok found =>
    obtain ⟨owner, shape⟩ := found
    have hg := get?_of_resolve hr
    simp only [lifted, ok_bind, h.isValueName_eq hv hv' (mem_names_of_get? hg),
      h.spelledCopy_eq hv hv' hg]

/-! ## Zero predicates -/

theorem zeroTest_eq (hr : ∀ name, ref.Uses name → name ∈ table.names) (owner context : String) :
    other.zeroTest owner context ref = table.zeroTest owner context ref := by
  cases ref with
  | inline fields => rw [zeroTest, zeroTest, h.isValue_eq hv hv' hr]
  | named target =>
    obtain ⟨canonical, shape, hl⟩ := exists_resolve_of_validate hv (hr target .named) context
    have hn := mem_names_of_get? (get?_of_resolve hl)
    rw [zeroTest, zeroTest, h.resolve_eq hv hv' (hr target .named), hl]
    simp only [lifted, ok_bind, h.isValueName_eq hv hv' hn]

theorem spelledZero_eq {owner : String} (hg : table.get? owner = some (.type shape)) :
    other.spelledZero owner shape = table.spelledZero owner shape := by
  have hslots : ∀ slot ∈ shape.slots, ∀ context,
      other.zeroTest owner context slot.2 = table.zeroTest owner context slot.2 :=
    fun slot hs context => h.zeroTest_eq hv hv' (mem_names_of_slot hv hg hs) owner context
  cases shape with
  | builtin | dynamic => rfl
  | fixed length element => rw [spelledZero, spelledZero, hslots _ (List.mem_singleton_self _)]
  | record fields =>
    rw [spelledZero, spelledZero]
    congr 1
    exact mapM_congr_of_mem fun field hf => by dsimp only; rw [hslots field hf]

theorem zeroBody_eq (hn : name ∈ table.names) : other.zeroBody name = table.zeroBody name := by
  unfold zeroBody lookup
  rw [h.get?_eq hn]
  cases hg : table.get? name with
  | none => simp only [lifted, error_bind]
  | some type =>
    cases type with
    | aliasOf target => simp only [lifted, ok_bind]
    | type shape =>
      simp only [lifted, ok_bind, h.isValueName_eq hv hv' hn, h.spelledZero_eq hv hv' hg]

/-! ## Zero values -/

omit hv hv' in
/-- A reference has the same zero value over both tables. -/
theorem eq_of_isZero {zero found : Content} (hz : table.IsZero ref zero)
    (hz' : other.IsZero ref found) : found = zero := by
  refine hz.induct (P := fun ref zero => ∀ found, other.IsZero ref found → found = zero)
    ?_ ?_ found hz'
  · intro name canonical shape zero hl hz found hz'
    obtain ⟨_, _, hl', hz'⟩ := hz'.named
    obtain ⟨rfl, rfl⟩ := (h.leadsTo hl).unique hl'
    cases hz with
    | builtin | dynamic =>
      cases hz'
      rfl
    | empty =>
      cases hz' with
      | empty => rfl
      | fixed hn => exact absurd rfl hn
    | fixed hn heq =>
      cases hz' with
      | empty => exact absurd rfl hn
      | fixed _ hzero => rw [heq _ hzero]
    | record heq =>
      cases hz' with
      | record hz' => exact heq _ hz'
  · intro fields zeros hf found hz'
    obtain ⟨zeros', rfl, hf'⟩ := hz'.inline
    have hall : List.Forall₂ (· = ·) zeros' zeros :=
      (forall₂_of_left hf' hf fun field _ zero' _ zero _ hz' heq =>
        Prod.ext (hz'.1.trans heq.1.symm) (heq.2 _ hz'.2))
    rw [List.forall₂_eq_eq_eq] at hall
    rw [hall]

theorem zeroContent_eq (hr : ∀ name, ref.Uses name → name ∈ table.names) :
    other.zeroContent ref = table.zeroContent ref := by
  have hmentions : ∀ mention ∈ ref.mentions "", mention.name ∈ table.names :=
    (ref.forall_mentions_iff (· ∈ table.names)).mpr hr
  obtain ⟨zero, hz⟩ := exists_zeroContent hv hmentions
  obtain ⟨found, hf⟩ := exists_zeroContent hv' fun mention hm => h.mem_names (hmentions mention hm)
  rw [hz, hf, h.eq_of_isZero (isZero_of_zeroContent hz) (isZero_of_zeroContent hf)]

end Sound

end Within

end Table

end CopySynth
