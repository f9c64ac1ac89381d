import CopySynth.Evaluation.ZeroAllocation
import CopySynth.Proofs.DeepCopy
import CopySynth.Proofs.Outlines
import CopySynth.Proofs.Storage

/-!
# Zero values of their own

Making a zero value is building its content, so in a sound table it always succeeds. What is made has
the fields and the items that its type asks for, and every sequence in it is empty and has a new
cell, which nothing else has.
-/

namespace CopySynth

/-! ## Making and building -/

/-- A step that does what building a content does, if there is one, and fails otherwise. -/
def Builds (step : Alloc Value) (zero : Except GenerationError Content) : Prop :=
  ∀ heap, step.run heap = zero >>= fun content => .ok (heap.build content)

theorem Builtin.builds_zeroOf (type : Builtin) : Builds type.zeroOf (.ok type.zeroContent) := by
  intro heap
  unfold zeroOf zeroContent
  cases type.marker with
  | capability | externalSequence => rfl
  | value | setLike => cases type.zero <;> rfl

/-- As many steps as there are items build the content for each of them. -/
theorem Builds.mapM {α : Type} {step : Alloc Value} {zero : Except GenerationError Content}
    (h : Builds step zero) {items : List α} (hi : items ≠ []) (heap : Heap) :
    (items.mapM fun _ => step).run heap =
      zero >>= fun content => .ok (heap.buildItems (List.replicate items.length content)) := by
  cases zero with
  | error fault =>
    obtain ⟨item, rest, rfl⟩ := List.exists_cons_of_ne_nil hi
    rw [List.mapM_cons, StateT.run_bind, h heap]
    rfl
  | ok content =>
    clear hi
    rw [ok_bind]
    induction items generalizing heap with
    | nil => rfl
    | cons item items ih =>
      rw [List.mapM_cons]
      exact run_bind_eq_ok (h heap) (run_bind_eq_ok (ih _) rfl)

namespace Ref

variable {make : String → Alloc Value} {zeroOfName : String → Except GenerationError Content}

mutual
/-- What is made for a reference is the content that its zero value has. -/
theorem builds_zeroOf (h : ∀ name, Builds (make name) (zeroOfName name)) :
    ∀ ref : Ref, Builds (ref.zeroOf make) (ref.zeroContent zeroOfName)
  | .named name => h name
  | .inline fields => fun heap => by
    rw [zeroOf, zeroContent, StateT.run_bind, builds_fieldsZeroOf h fields heap]
    cases fieldsZero zeroOfName fields <;> rfl

theorem builds_fieldsZeroOf (h : ∀ name, Builds (make name) (zeroOfName name)) :
    ∀ (fields : List (String × Ref)) (heap : Heap), (fieldsZeroOf make fields).run heap =
      fieldsZero zeroOfName fields >>= fun contents => .ok (heap.buildFields contents)
  | [], _ => rfl
  | (name, ref) :: rest, heap => by
    rw [fieldsZeroOf, fieldsZero, StateT.run_bind, builds_zeroOf h ref heap]
    cases ref.zeroContent zeroOfName with
    | error fault => rfl
    | ok content =>
      simp only [ok_bind]
      rw [StateT.run_bind, builds_fieldsZeroOf h rest]
      cases fieldsZero zeroOfName rest <;> rfl
end

end Ref

namespace Table

variable {table : Table}

theorem builds_zeroOfWithin (table : Table) (depth : Nat) (name : String) :
    Builds (table.zeroOfWithin depth name) (table.zeroWithin depth name) := by
  induction depth generalizing name with
  | zero => exact fun _ => rfl
  | succ depth ih =>
    intro heap
    rw [zeroOfWithin, zeroWithin]
    cases table.resolve name "zero value" with
    | error fault => rfl
    | ok found =>
      obtain ⟨canonical, shape⟩ := found
      have hfound : (liftM (lifted (Except.ok (canonical, shape))) : Alloc (String × Shape)) =
        pure (canonical, shape) := rfl
      rw [hfound, pure_bind, lifted, ok_bind]
      cases shape with
      | builtin type => exact type.builds_zeroOf heap
      | dynamic element => rfl
      | fixed length element =>
        cases length with
        | zero => rfl
        | succ length =>
          have hitems := (Ref.builds_zeroOf ih element).mapM
            (List.ne_nil_of_length_pos (by simp) : List.range (length + 1) ≠ []) heap
          rw [List.length_range] at hitems
          show _ = (element.zeroContent (table.zeroWithin depth) >>= fun content =>
            pure (.array (List.replicate (length + 1) content))) >>= fun content =>
              .ok (heap.build content)
          rw [StateT.run_bind, hitems]
          cases element.zeroContent (table.zeroWithin depth) <;> rfl
      | record fields =>
        dsimp only
        rw [StateT.run_bind, Ref.builds_fieldsZeroOf ih fields heap]
        cases Ref.fieldsZero (table.zeroWithin depth) fields <;> rfl

/-- Making the zero value of a reference is building its content. -/
theorem builds_zeroOf (table : Table) (ref : Ref) :
    Builds (table.zeroOf ref) (table.zeroContent ref) :=
  Ref.builds_zeroOf (table.builds_zeroOfWithin _) ref

end Table

/-! ## What a zero value is like -/

/-- A value has the shape of a type with nothing in it, given what is asked of the parts it holds in
place. -/
inductive Shape.Zeroed (heap : Heap) (P : Ref → Value → Prop) : Shape → Value → Prop
  | scalar {type x} (hm : type.marker = .value ∨ type.marker = .setLike)
      (hx : type.zeroContent = .scalar x) : Zeroed heap P (.builtin type) (.scalar x)
  | external {type address} (hm : type.marker = .externalSequence)
      (he : heap.read address = []) : Zeroed heap P (.builtin type) (.seq address)
  | unset {type} (hm : type.marker = .capability) : Zeroed heap P (.builtin type) .unset
  | fixed {length element items} (hl : items.length = length)
      (h : ∀ item ∈ items, P element item) : Zeroed heap P (.fixed length element) (.array items)
  | dynamic {element address} (he : heap.read address = []) :
      Zeroed heap P (.dynamic element) (.seq address)
  | record {fields value} (h : P (.inline fields) value) : Zeroed heap P (.record fields) value

/-- A value is that of a reference with nothing in it: its fields are those declared, in order. -/
inductive Table.Zeroed (table : Table) (heap : Heap) : Ref → Value → Prop
  | named {name canonical shape value} (hl : table.LeadsTo name canonical shape)
      (h : shape.Zeroed heap (Zeroed table heap) value) : Zeroed table heap (.named name) value
  | inline {declared fields} (hn : Fields.names fields = Fields.names declared)
      (h : List.Forall₂ (Zeroed table heap) (declared.map Prod.snd) (fields.map Prod.snd)) :
      Zeroed table heap (.inline declared) (.record fields)

namespace Heap

variable {heap : Heap} {value : Value}

theorem Stores.eq_scalar {x : Scalar} (h : heap.Stores value (.scalar x)) : value = .scalar x := by
  obtain ⟨_, _, he⟩ := stores_iff.mp h
  cases value with
  | scalar => cases he; rfl
  | record | array | seq | unset | slot => cases he

/-- A sequence without content is an empty cell. -/
theorem Stores.exists_empty (h : heap.Stores value (.seq [])) :
    ∃ address, value = .seq address ∧ heap.read address = [] := by
  obtain ⟨address, rfl⟩ := h.exists_seq
  obtain ⟨contents, hall, he⟩ := stores_iff.mp h
  cases he
  exact ⟨address, rfl, List.forall₂_nil_right_iff.mp hall⟩

/-- All cells of a value are empty when they are its own and those of its parts. -/
theorem Stores.read_storage {content : Content} (h : heap.Stores value content)
    (hv : ∀ a ∈ value.address?, heap.read a = [])
    (hp : ∀ part ∈ heap.parts value, ∀ a ∈ heap.storage part, heap.read a = []) :
    ∀ a ∈ heap.storage value, heap.read a = [] := by
  intro a ha
  rw [h.storage_eq, List.mem_append, List.mem_flatMap] at ha
  rcases ha with ha | ⟨part, hpart, ha⟩
  · exact hv a (Option.mem_toList.mp ha)
  · exact hp part hpart a ha

end Heap

namespace Table

variable {table : Table} {language : Code.Language} {heap : Heap} {ref : Ref} {zero : Content}
  {value : Value}

/-- What stores the zero value of a reference has its shape with nothing in it. -/
theorem zeroed_of_isZero (h : table.IsZero ref zero) (hs : heap.Stores value zero) :
    table.Zeroed heap ref value := by
  refine h.induct (P := fun ref zero => ∀ value, heap.Stores value zero →
    table.Zeroed heap ref value) ?_ ?_ value hs
  · intro name canonical shape zero hl hz value hs
    refine .named hl ?_
    cases hz with
    | @builtin type =>
      rcases type.zeroContent_cases with ⟨hm, hz⟩ | ⟨hm, hz⟩ | ⟨hm, x, hz, _⟩
      · rw [hz] at hs
        rw [hs.eq_unset]
        exact .unset hm
      · rw [hz] at hs
        obtain ⟨address, rfl, he⟩ := hs.exists_empty
        exact .external hm he
      · rw [hz] at hs
        rw [hs.eq_scalar]
        exact .scalar (by cases hmarker : type.marker <;> simp_all [Marker.ownsStorage]) hz
    | dynamic =>
      obtain ⟨address, rfl, he⟩ := hs.exists_empty
      exact .dynamic he
    | empty =>
      obtain ⟨items, rfl, hall⟩ := hs.exists_array
      cases hall
      exact .fixed rfl fun item hi => absurd hi List.not_mem_nil
    | fixed _ h =>
      obtain ⟨items, rfl, hall⟩ := hs.exists_array
      refine .fixed (by simpa using hall.length_eq) fun item hi => ?_
      obtain ⟨content, hm, hs⟩ := exists_of_mem_left hall hi
      rw [List.eq_of_mem_replicate hm] at hs
      exact h item hs
    | record h => exact .record (h value hs)
  · intro fields zeros hf value hs
    obtain ⟨parts, rfl, hall⟩ := hs.exists_record
    refine .inline ((names_eq_of_forall₂ hall).symm.trans (names_eq_of_forall₂ hf)) ?_
    rw [List.forall₂_map_left_iff, List.forall₂_map_right_iff]
    exact forall₂_of_left hf.flip hall.flip
      fun _ _ field _ part _ hfield hpart => hfield.2 part.2 hpart.2

/-- A zero value has nothing but empty cells. -/
theorem read_storage_of_isZero (h : table.IsZero ref zero) (hs : heap.Stores value zero) :
    ∀ a ∈ heap.storage value, heap.read a = [] := by
  refine h.induct (P := fun ref zero => ∀ value, heap.Stores value zero →
    ∀ a ∈ heap.storage value, heap.read a = []) ?_ ?_ value hs
  · intro name canonical shape zero _ hz value hs
    cases hz with
    | @builtin type =>
      rcases type.zeroContent_cases with ⟨_, hz⟩ | ⟨_, hz⟩ | ⟨_, x, hz, _⟩
      · rw [hz] at hs
        obtain rfl := hs.eq_unset
        exact hs.read_storage (by simp [Value.address?]) (by simp [Heap.parts])
      · rw [hz] at hs
        obtain ⟨address, rfl, he⟩ := hs.exists_empty
        exact hs.read_storage (by simp [Value.address?, he]) (by simp [Heap.parts, he])
      · rw [hz] at hs
        obtain rfl := hs.eq_scalar
        exact hs.read_storage (by simp [Value.address?]) (by simp [Heap.parts])
    | dynamic =>
      obtain ⟨address, rfl, he⟩ := hs.exists_empty
      exact hs.read_storage (by simp [Value.address?, he]) (by simp [Heap.parts, he])
    | empty =>
      obtain ⟨items, rfl, hall⟩ := hs.exists_array
      cases hall
      exact hs.read_storage (by simp [Value.address?]) (by simp [Heap.parts])
    | fixed _ h =>
      obtain ⟨items, rfl, hall⟩ := hs.exists_array
      refine hs.read_storage (by simp [Value.address?]) fun item hi => ?_
      obtain ⟨content, hm, hitem⟩ := exists_of_mem_left hall hi
      rw [List.eq_of_mem_replicate hm] at hitem
      exact h item hitem
    | record h => exact h value hs
  · intro fields zeros hf value hs
    obtain ⟨parts, rfl, hall⟩ := hs.exists_record
    refine hs.read_storage (by simp [Value.address?]) fun part hpart => ?_
    obtain ⟨⟨name, part⟩, hm, rfl⟩ := List.mem_map.mp hpart
    obtain ⟨content, hc, -, hstores⟩ := exists_of_mem_left hall hm
    obtain ⟨_, -, -, hfield⟩ := exists_of_mem_right hf hc
    exact hfield part hstores

/-- In a sound table the zero value of a reference can be made in any heap. It has the shape of the
reference with nothing in it; its cells are all empty, all new and all different, and what was
allocated before is as it was. -/
theorem zeroOf_of_validate (hv : table.validate language = .ok ())
    (hr : ∀ name, ref.Uses name → name ∈ table.names) (before : Heap) :
    ∃ value after, (table.zeroOf ref).run before = .ok (value, after) ∧
      table.Zeroed after ref value ∧ before.Grows after ∧
      (∀ a ∈ after.storage value, after.read a = [] ∧ before.size ≤ a ∧ a < after.size) ∧
      (after.storage value).Nodup := by
  have hm : ∀ mention ∈ ref.mentions "", mention.name ∈ table.names :=
    (ref.forall_mentions_iff (· ∈ table.names)).mpr hr
  obtain ⟨zero, hz⟩ := exists_zeroContent hv hm
  have hbuilds := table.builds_zeroOf ref before
  rw [hz, ok_bind] at hbuilds
  have hzero := isZero_of_zeroContent hz
  have hfresh := before.fresh_build zero
  refine ⟨_, _, hbuilds, zeroed_of_isZero hzero hfresh.stores, hfresh.grows, fun a ha => ?_,
    hfresh.distinct⟩
  exact ⟨read_storage_of_isZero hzero hfresh.stores a ha, hfresh.cells a ha⟩

/-- Two nodes side by side, one of them under the other name of its type. -/
def ringTwins : Ref := .inline [("left", .named "Node"), ("right", .named "Link")]

/-- Two nodes that are made together do not share the cells of what follows them. -/
theorem zeroOf_ringTwins :
    ∃ value after, (ring.zeroOf ringTwins).run {} = .ok (value, after) ∧
      ring.Zeroed after ringTwins value ∧ after.storage value = [0, 1] ∧
      (after.storage value).Nodup := by
  have hr : ∀ name, ringTwins.Uses name → name ∈ ring.names :=
    (ringTwins.forall_mentions_iff (· ∈ ring.names)).mp
      (show ∀ mention ∈ ringTwins.mentions "", mention.name ∈ ring.names by decide)
  obtain ⟨value, after, hrun, hzeroed, -, -, hdistinct⟩ := zeroOf_of_validate validate_ring hr {}
  have hcells : (ring.zeroOf ringTwins).run {} = .ok _ := rfl
  cases hrun.symm.trans hcells
  exact ⟨_, _, hrun, hzeroed, rfl, hdistinct⟩

end Table

end CopySynth
