import CopySynth.Proofs.CopyOutcome
import CopySynth.Proofs.ReorderedMethods
import CopySynth.Proofs.ZeroPredicate

/-!
# Values of reordered types

A record is compared field by field under the names, so that the zero values of a type in two tables
that differ at most in the order of fields are equal to the same contents; the predicates then give
the same answers. The overrides of a record copy are the same in another order, so that a finite
value can be copied over both tables or over neither.
-/

namespace CopySynth

/-! ## Comparing with reordered records -/

namespace Content

/-- Two contents are equal to the same contents. -/
def Alike (x other : Content) : Prop := ∀ y, other.equal y = x.equal y

theorem alike_replicate {x other : Content} (h : x.Alike other) (n : Nat) :
    (Content.array (List.replicate n x)).Alike (.array (List.replicate n other)) := by
  have hitems (ys : List Content) :
      equalItems (List.replicate n other) ys = equalItems (List.replicate n x) ys := by
    induction n generalizing ys with
    | zero => rfl
    | succ n ih =>
      cases ys with
      | nil => rfl
      | cons y ys => rw [List.replicate_succ, List.replicate_succ, equalItems, equalItems, h, ih]
  intro y
  cases y with
  | array ys => exact hitems ys
  | scalar | record | seq | unset | slot => rfl

/-- Records are equal to the same contents when each field of either has its like in the other. -/
theorem alike_record {xs others : Fields Content} (hlen : others.length = xs.length)
    (hxs : ∀ name x, (name, x) ∈ xs → ∃ other, (name, other) ∈ others ∧ x.Alike other)
    (ho : ∀ name other, (name, other) ∈ others → ∃ x, (name, x) ∈ xs ∧ x.Alike other) :
    (Content.record xs).Alike (.record others) := by
  have hfields (ys : Fields Content) : equalFields others ys = equalFields xs ys := by
    rw [Bool.eq_iff_iff, equalFields_iff, equalFields_iff]
    constructor
    · intro h name x hx
      obtain ⟨other, hm, halike⟩ := hxs name x hx
      obtain ⟨y, hy, he⟩ := h name other hm
      exact ⟨y, hy, halike y ▸ he⟩
    · intro h name other hm
      obtain ⟨x, hx, halike⟩ := ho name other hm
      obtain ⟨y, hy, he⟩ := h name x hx
      exact ⟨y, hy, (halike y).trans he⟩
  intro y
  cases y with
  | record ys => rw [equal, equal, hlen, hfields]
  | scalar | array | seq | unset | slot => rfl

end Content

namespace Table.Reordered

variable {table other : Table} {name canonical : String} {shape : Shape} {ref found : Ref}
  {value : Value}

section

variable (h : table.Reordered other)
include h

theorem leadsTo (hl : table.LeadsTo name canonical shape) :
    ∃ found, other.LeadsTo name canonical found ∧ shape.Reordered found := by
  induction hl with
  | type hg =>
    obtain ⟨found, hg', hr⟩ := h.get?_type hg
    exact ⟨found, .type hg', hr⟩
  | aliased hg _ ih =>
    obtain ⟨found, hl', hr⟩ := ih
    exact ⟨found, .aliased (h.get?_aliasOf hg) hl', hr⟩

/-- A value has the outline of a type in both tables. -/
theorem outlined (ho : table.Outlined ref value) (hr : ref.Reordered found) :
    other.Outlined found value := by
  refine ho.induct (P := fun ref value => ∀ found, ref.Reordered found →
    other.Outlined found value) ?_ ?_ found hr
  · intro name canonical shape value hl ho found hr
    cases hr
    obtain ⟨shape', hl', hs⟩ := h.leadsTo hl
    refine .named hl' ?_
    cases ho with
    | plain hm =>
      cases hs
      exact .plain hm
    | external hm =>
      cases hs
      exact .external hm
    | unset hm =>
      cases hs
      exact .unset hm
    | slot hm =>
      cases hs
      exact .slot hm
    | fixed hlen ho =>
      cases hs with
      | fixed _ hr => exact .fixed hlen fun item hi => ho item hi _ hr
    | dynamic =>
      cases hs
      exact .dynamic
    | record ho =>
      cases hs with
      | record hr => exact .record (ho _ hr)
  · intro declared fields hn ho found hr
    cases hr with
    | @inline _ others hd hperm hs =>
      refine .inline (hn.trans hperm) fun name ref' part hm hp => ?_
      obtain ⟨ref, hm', hr⟩ := (Ref.Reordered.inline hd hperm hs).symm.exists_field hm
      exact ho name ref part hm' hp ref' hr.symm

/-- The zero values of a type in both tables are equal to the same contents. -/
theorem alike_of_isZero {zero zero' : Content} (hz : table.IsZero ref zero)
    (hr : ref.Reordered found) (hz' : other.IsZero found zero') : zero.Alike zero' := by
  refine hz.induct (P := fun ref zero => ∀ found zero', ref.Reordered found →
    other.IsZero found zero' → zero.Alike zero') ?_ ?_ found zero' hr hz'
  · intro name canonical shape zero hl hz found zero' hr hz'
    cases hr
    obtain ⟨_, _, hl', hz'⟩ := hz'.named
    obtain ⟨shape', hfound, hs⟩ := h.leadsTo hl
    obtain ⟨rfl, rfl⟩ := hfound.unique hl'
    cases hz with
    | builtin | dynamic =>
      cases hs
      cases hz'
      exact fun _ => rfl
    | empty =>
      cases hs
      cases hz' with
      | empty => exact fun _ => rfl
      | fixed hn => exact absurd rfl hn
    | fixed hn halike =>
      cases hs with
      | fixed _ hr =>
        cases hz' with
        | empty => exact absurd rfl hn
        | fixed _ hzero => exact Content.alike_replicate (halike _ _ hr hzero) _
    | record halike =>
      cases hs with
      | record hr =>
        cases hz' with
        | record hzero => exact halike _ _ hr hzero
  · intro fields zeros hf found zero' hr hz'
    cases hr with
    | @inline _ others hd hn hs =>
      have hr := Ref.Reordered.inline hd hn hs
      obtain ⟨zeros', rfl, hf'⟩ := hz'.inline
      have hlen : others.length = fields.length := by
        simpa [Fields.names] using hn.length_eq.symm
      refine Content.alike_record (by rw [← hf'.length_eq, ← hf.length_eq, hlen]) ?_ ?_
      · intro name zero hm
        obtain ⟨⟨_, ref⟩, hfield, rfl, halike⟩ := exists_of_mem_right hf hm
        obtain ⟨ref', hfield', hs⟩ := hr.exists_field hfield
        obtain ⟨⟨_, zero'⟩, hm', rfl, hz'⟩ := exists_of_mem_left hf' hfield'
        exact ⟨zero', hm', halike ref' zero' hs hz'⟩
      · intro name zero' hm'
        obtain ⟨⟨_, ref'⟩, hfield', rfl, hz'⟩ := exists_of_mem_right hf' hm'
        obtain ⟨ref, hfield, hs⟩ := hr.symm.exists_field hfield'
        obtain ⟨⟨_, zero⟩, hm, rfl, halike⟩ := exists_of_mem_left hf hfield
        exact ⟨zero, hm, halike ref' zero' hs.symm hz'⟩

end

end Table.Reordered

/-! ## Zero predicates -/

namespace Synthesis

variable {table : Table} {language : Code.Language} {config : Config} {roots : List String}
  {synthesis : Synthesis}
  {heap : Heap} {value : Value} {content : Content} {type : String}

/-- The predicate of a name is that of its canonical name. -/
theorem isZero_of_leadsTo (hv : table.validate language = .ok ()) {canonical : String}
    {shape : Shape} (hl : table.LeadsTo type canonical shape) :
    synthesis.isZero table heap type value = synthesis.isZero table heap canonical value := by
  obtain ⟨_, _, hr⟩ := Table.exists_resolve_of_validate hv hl.mem_names "evaluation"
  obtain ⟨rfl, rfl⟩ := hl.unique (Table.leadsTo_of_resolve hr)
  rw [isZero, isZero, isZeroWithin, isZeroWithin, hr, Table.resolve_of_get? _ hl.get?]

/-- A type without a predicate has none to apply. -/
theorem isZero_of_none {shape : Shape} (hg : table.get? type = some (.type shape))
    (hb : synthesis.zeroBody? type = none) :
    synthesis.isZero table heap type value = .error (.evaluation (.noPredicate type)) :=
  isZeroWithin_of_none (Table.resolve_of_get? _ hg) hb

/-- A predicate compares a finite value with the zero value of its type. -/
theorem isZero_eq_ok (hv : table.validate language = .ok ()) (hclosed : table.ZerosClosed synthesis)
    (ht : (synthesis.zeroBody? type).isSome) (ho : table.Outlined (.named type) value)
    (hc : heap.Stores value content) :
    ∃ zero, table.IsZero (.named type) zero ∧
      synthesis.isZero table heap type value = .ok (zero.equal content) := by
  have hn : type ∈ table.names := Table.mem_names_of_hasPredicate ((hclosed.covers type).mp ht)
  obtain ⟨zero, hzero⟩ := Table.exists_zeroContent_named hv hn
  have hz := Table.isZero_of_zeroContent hzero
  exact ⟨zero, hz, agreesWithin hv hclosed heap _ type value content zero ht hz ho hc
    (Nat.lt_succ_self _)⟩

end Synthesis

/-! ## Copies -/

namespace CopyBody

variable {body other : CopyBody} {P Q : ElementCopy → Value → Prop} {heap : Heap} {value : Value}

/-- A body applies as well in another order of fields, if more can be duplicated. -/
theorem Reordered.applies (h : body.Reordered other) (hi : ∀ how value, P how value → Q how value)
    (ha : body.Applies P heap value) : other.Applies Q heap value := by
  have hrecord {fields others : List (String × ElementCopy)} {parts : Fields Value}
      (hp : fields.Perm others)
      (ha : (CopyBody.record fields).Applies P heap (.record parts)) :
      (CopyBody.record others).Applies Q heap (.record parts) := by
    intro field hf
    obtain ⟨part, hpart, how⟩ := ha field ((hp.filter _).mem_iff.mpr hf)
    exact ⟨part, hpart, hi _ _ how⟩
  cases h with
  | record hp =>
    cases value with
    | record parts => exact hrecord hp ha
    | scalar | array | seq | unset | slot => exact ha
  | refl =>
    cases body with
    | trivial | shallow => trivial
    | dynamic element =>
      cases value with
      | seq address => exact fun item hm => hi _ _ (ha item hm)
      | scalar | record | array | unset | slot => exact ha
    | fixed length element =>
      cases value with
      | array items => exact fun item hm => hi _ _ (ha item hm)
      | scalar | record | seq | unset | slot => exact ha
    | record fields =>
      cases value with
      | record parts => exact hrecord (.refl fields) ha
      | scalar | array | seq | unset | slot => exact ha

end CopyBody

namespace Table.Reordered

variable {table other : Table} {language : Code.Language} {config : Config} {roots : List String}
  {synthesis found : Synthesis} {heap : Heap} {type : String} {value : Value} {content : Content}
  (hv : table.validate language = .ok ()) (hv' : other.validate language = .ok ())
  (h : table.Reordered other) (hs : table.synthesize language config roots = .ok synthesis)
  (hs' : other.synthesize language config roots = .ok found)
include hv hv' h hs hs'

/-- The predicates of both runs give the same answer for a finite value of the type. -/
theorem isZero_eq (ho : table.Outlined (.named type) value) (hc : heap.Stores value content) :
    found.isZero other heap type value = synthesis.isZero table heap type value := by
  have hclosed := zerosClosed_of_synthesize hs
  have hclosed' := zerosClosed_of_synthesize hs'
  cases ho with
  | @named _ canonical shape _ hl hvalue =>
    obtain ⟨shape', hl', hshape⟩ := h.leadsTo hl
    rw [Synthesis.isZero_of_leadsTo hv hl, Synthesis.isZero_of_leadsTo hv' hl']
    have ho : table.Outlined (.named canonical) value := .named (.type hl.get?) hvalue
    have hsome : (found.zeroBody? canonical).isSome ↔ (synthesis.zeroBody? canonical).isSome := by
      rw [hclosed.covers, hclosed'.covers, h.hasPredicate_eq]
    by_cases ht : (synthesis.zeroBody? canonical).isSome
    · obtain ⟨zero, hz, heq⟩ := Synthesis.isZero_eq_ok hv hclosed ht ho hc
      obtain ⟨zero', hz', heq'⟩ := Synthesis.isZero_eq_ok hv' hclosed' (hsome.mpr ht)
        (h.outlined ho (.named canonical)) hc
      rw [heq, heq', h.alike_of_isZero hz (.named canonical) hz']
    · rw [Synthesis.isZero_of_none hl.get? (by simpa using ht),
        Synthesis.isZero_of_none hl'.get? (by simpa using mt hsome.mp ht)]

theorem isSome_copyBody?_iff :
    (found.copyBody? type).isSome ↔ (synthesis.copyBody? type).isSome := by
  simp only [Option.isSome_iff_exists]
  constructor
  · rintro ⟨body, hb⟩
    obtain ⟨counterpart, hf, _⟩ := h.symm.copyBody? hv' hv hs' hs hb
    exact ⟨counterpart, hf⟩
  · rintro ⟨body, hb⟩
    obtain ⟨counterpart, hf, _⟩ := h.copyBody? hv hv' hs hs' hb
    exact ⟨counterpart, hf⟩

/-- A concrete type behind an interface is duplicated in the same way in both runs. -/
theorem variantCopy {concrete : String} {how : ElementCopy}
    (hc : synthesis.variantCopy table concrete = .ok how) :
    found.variantCopy other concrete = .ok how := by
  rw [Synthesis.variantCopy_eq_ok_iff] at hc ⊢
  rw [h.isSome_copyBody?_iff hv hv' hs hs']
  refine hc.imp_right fun ⟨hnone, hvalue, how⟩ => ⟨hnone, ?_, how⟩
  obtain ⟨hg, _⟩ := Table.plainRef_of_isValue hvalue "" ⟨concrete, ""⟩ (by simp [Ref.mentions])
  rw [h.isValueName_eq hv hv' (mem_names_of_get? hg), hvalue]

/-- What can be duplicated over one table can be over the other. -/
theorem copyableWithin {depth : Nat} {how : ElementCopy}
    (hc : synthesis.CopyableWithin table heap depth how value) :
    found.CopyableWithin other heap depth how value := by
  induction depth generalizing how value with
  | zero => exact hc
  | succ depth ih =>
    cases how with
    | assign | external => trivial
    | capability name =>
      cases value with
      | unset => trivial
      | slot concrete inner =>
        obtain ⟨how, hvariant, hinner⟩ := hc
        exact ⟨how, h.variantCopy hv hv' hs hs' hvariant, ih hinner⟩
      | scalar | record | array | seq => exact hc
    | helper type =>
      obtain ⟨name, shape, body, hr, hb, happlies⟩ := hc
      obtain ⟨shape', hr', _⟩ := h.resolve hr
      obtain ⟨body', hb', hbody⟩ := h.copyBody? hv hv' hs hs' hb
      exact ⟨name, shape', body', hr', hb', hbody.applies (fun _ _ => ih) happlies⟩

end Table.Reordered

end CopySynth
