import CopySynth.Proofs.Memory
import CopySynth.Proofs.TableCheck

/-!
# Which types own storage

A type owns storage when it is a growable sequence, an external sequence or an interface, or when it
holds such a type in place, directly or through others. In a table that passes its check the
classifier settles every type, and the types it takes for value types are those that own no storage.
-/

namespace CopySynth

namespace Table

/-- A type that owns storage itself or holds a type that does. -/
inductive Owning (table : Table) : String → Prop
  | owner {name type} (hg : table.get? name = some type) (ho : type.ownsStorage = true) :
      Owning table name
  | part {name part} (hh : table.Holds name part) (hp : Owning table part) : Owning table name

/-- A reference to storage: a name it uses is that of a type that owns storage. -/
def OwningRef (table : Table) (ref : Ref) : Prop := ∃ name, ref.Uses name ∧ table.Owning name

variable {table : Table} {language : Code.Language} {name : String}

theorem Storing.owning (h : table.Storing name) : table.Owning name := by
  induction h with
  | owner hg ho => exact .owner hg ho
  | @part name type before part after hg ho hc hb _ ih =>
    have hh : table.Asks name part.name := ⟨type, before, part, after, hg, ho, hc, hb, rfl⟩
    exact .part hh.holds ih

theorem Owning.not_plain (h : table.Owning name) : ¬ table.Plain name := by
  induction h with
  | owner hg ho =>
    intro hp
    cases ho.symm.trans (hp.of_get? hg).1
  | @part name part hh _ ih =>
    rintro ⟨hg, _, hc⟩
    obtain ⟨mention, hm, rfl⟩ := List.mem_map.mp ((holds_iff_of_get? hg).mp hh)
    exact ih (hc mention hm)

/-! ## Tables in layers -/

/-- Every listed type is a value type or is found to be none. -/
theorem Layered.plain_or_storing {names : List String} (h : table.Layered names)
    (hn : name ∈ names) : table.Plain name ∨ table.Storing name := by
  induction h generalizing name with
  | nil => exact absurd hn List.not_mem_nil
  | @cons first type rest hg _ hc _ ih =>
    rcases List.mem_cons.mp hn with rfl | hn
    · cases ho : type.ownsStorage with
      | true => exact .inr (.owner hg ho)
      | false =>
        have hparts : ∀ mention ∈ type.contained name,
            table.Plain mention.name ∨ table.Storing mention.name :=
          fun mention hm => ih (hc mention.name (List.mem_map_of_mem hm))
        rcases forall_or_exists_first hparts with hplain | ⟨before, part, after, hsplit, hb, hp⟩
        · exact .inl (.intro hg ho hplain)
        · exact .inr (.part hg ho hsplit hb hp)
    · exact ih hn

theorem plain_or_storing_of_validate (h : table.validate language = .ok ())
    (hn : name ∈ table.names) :
    table.Plain name ∨ table.Storing name := by
  obtain ⟨names, hl, hall, _⟩ := layered_of_validate h
  exact hl.plain_or_storing ((hall name).mpr hn)

/-- In a table that passes its check the classifier answers every question about types of the table,
and negatively just for references to storage. -/
theorem isValue_of_validate (h : table.validate language = .ok ()) {ref : Ref}
    (hr : ∀ name, ref.Uses name → name ∈ table.names) (context : String) :
    (¬ table.OwningRef ref ∧ table.isValue ref context = .ok true) ∨
      (table.OwningRef ref ∧ table.isValue ref context = .ok false) := by
  have hmentions : ∀ mention ∈ ref.mentions context,
      table.Plain mention.name ∨ table.Storing mention.name := by
    rw [ref.forall_mentions_iff fun name => table.Plain name ∨ table.Storing name]
    exact fun name hu => plain_or_storing_of_validate h (hr name hu)
  rw [isValue_eq]
  rcases forall_or_exists_first hmentions with hplain | ⟨before, part, after, hsplit, hb, hp⟩
  · refine .inl ⟨?_, allM_eq_ok_true_iff.mpr fun mention hm => ?_⟩
    · rw [ref.forall_mentions_iff table.Plain] at hplain
      rintro ⟨name, hu, ho⟩
      exact ho.not_plain (hplain name hu)
    · exact judge_of_plain (hplain mention hm) (.start mention.name)
  · refine .inr ⟨⟨part.name, ?_, hp.owning⟩, allM_eq_ok_false_iff.mpr ⟨before, part, after, hsplit,
      fun mention hm => judge_of_plain (hb mention hm) (.start mention.name),
      judge_of_storing hp (.start part.name)⟩⟩
    rw [ref.uses_iff context, hsplit]
    exact List.mem_map_of_mem (by simp)

theorem uses_named_iff {other : String} : (Ref.named name).Uses other ↔ other = name := by
  constructor
  · rintro ⟨⟩
    rfl
  · rintro rfl
    exact .named

theorem owningRef_named_iff : table.OwningRef (.named name) ↔ table.Owning name := by
  simp only [OwningRef, uses_named_iff, exists_eq_left]

/-- The same for a name. -/
theorem isValueName_of_validate (h : table.validate language = .ok ()) (hn : name ∈ table.names)
    (context : String) :
    (¬ table.Owning name ∧ table.isValueName name context = .ok true) ∨
      (table.Owning name ∧ table.isValueName name context = .ok false) := by
  rw [← owningRef_named_iff]
  exact isValue_of_validate h (fun other hu => uses_named_iff.mp hu ▸ hn) context

/-- Classifiers of two tables that pass their checks agree on references that own storage both or
neither. -/
theorem isValue_congr {other : Table} (h : table.validate language = .ok ())
    (h' : other.validate language = .ok ()) {ref ref' : Ref}
    (hr : ∀ name, ref.Uses name → name ∈ table.names)
    (hr' : ∀ name, ref'.Uses name → name ∈ other.names)
    (hiff : other.OwningRef ref' ↔ table.OwningRef ref) (context : String) :
    other.isValue ref' context = table.isValue ref context := by
  rcases isValue_of_validate h hr context with ⟨hno, hvalue⟩ | ⟨ho, hvalue⟩
  · rcases isValue_of_validate h' hr' context with ⟨_, hvalue'⟩ | ⟨ho, _⟩
    · rw [hvalue, hvalue']
    · exact absurd (hiff.mp ho) hno
  · rcases isValue_of_validate h' hr' context with ⟨hno, _⟩ | ⟨_, hvalue'⟩
    · exact absurd (hiff.mpr ho) hno
    · rw [hvalue, hvalue']

/-- In a table that passes its check every name of the table leads to a type of its own. -/
theorem exists_resolve_of_validate (h : table.validate language = .ok ()) (hn : name ∈ table.names)
    (context : String) :
    ∃ canonical shape, table.resolve name context = .ok (canonical, shape) := by
  obtain ⟨names, hl, hall, hsize⟩ := layered_of_validate h
  obtain ⟨canonical, shape, hr, _⟩ :=
    hl.resolveFrom ((hall name).mpr hn) context (Nat.le_succ_of_le hsize)
      fun _ _ => List.not_mem_nil
  exact ⟨canonical, shape, hr⟩

end Table

end CopySynth
