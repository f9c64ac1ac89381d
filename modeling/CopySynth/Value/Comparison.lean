import CopySynth.Value.Heap

/-!
# Comparing values

Values are compared by their contents, without building them: a comparison reads a cell only when
the answer depends on it. So it can end for a value that contains itself; what it is compared with
then differs from it before the value comes back to itself. Where a value has a content,
`hasContent_eq_equal` says that the comparison is the one of contents.
-/

namespace CopySynth.Heap

mutual
/-- Whether a value has this content. The value is read no deeper than the content goes. -/
def hasContent (heap : Heap) : Content → Value → Bool
  | .scalar x, .scalar y => x.equal y
  | .record contents, .record fields =>
    contents.length == fields.length && heap.haveContents contents fields
  | .array contents, .array items => heap.allHaveContents contents items
  | .seq contents, .seq address => heap.allHaveContents contents (heap.read address)
  | .unset, .unset => true
  | .slot name content, .slot concrete value => name == concrete && heap.hasContent content value
  | _, _ => false

/-- Whether the fields of these names have these contents. -/
def haveContents (heap : Heap) : List (String × Content) → Fields Value → Bool
  | [], _ => true
  | (name, content) :: rest, fields =>
    (match fields.get? name with
      | some value => heap.hasContent content value
      | none => false) && heap.haveContents rest fields

/-- Whether items have these contents one by one. -/
def allHaveContents (heap : Heap) : List Content → List Value → Bool
  | [], [] => true
  | content :: contents, value :: values =>
    heap.hasContent content value && heap.allHaveContents contents values
  | _, _ => false
end

/-- Whether two values have equal contents, if that shows within this depth. -/
def equalWithin (heap : Heap) : Nat → Value → Value → Option Bool
  | 0, _, _ => none
  | depth + 1, x, y =>
    let items (xs ys : List Value) : Option Bool :=
      if xs.length = ys.length then
        (xs.zip ys).allM fun (x, y) => heap.equalWithin depth x y
      else some false
    match x, y with
    | .scalar x, .scalar y => some (x.equal y)
    | .record xs, .record ys =>
      if xs.length = ys.length then
        xs.allM fun (name, x) =>
          match Fields.get? ys name with
          | some y => heap.equalWithin depth x y
          | none => some false
      else some false
    | .array xs, .array ys => items xs ys
    | .seq a, .seq b => items (heap.read a) (heap.read b)
    | .unset, .unset => some true
    | .slot a x, .slot b y => if a = b then heap.equalWithin depth x y else some false
    | _, _ => some false

/-- Whether two values have equal contents. A comparison that comes back to a pair of parts it began
with never ends; the number of such pairs bounds the depth of every other one. -/
def equal? (heap : Heap) (x y : Value) : Option Bool :=
  heap.equalWithin (heap.depthBound x * heap.depthBound y) x y

/-! ## What a comparison says -/

variable {heap : Heap} {depth : Nat}

theorem length_of_mapM {α β : Type} {f : α → Option β} :
    ∀ {xs : List α} {ys : List β}, xs.mapM f = some ys → ys.length = xs.length
  | [], ys, made => by
    simp only [List.mapM_nil] at made
    cases made
    rfl
  | x :: xs, ys, made => by
    simp only [List.mapM_cons, Option.bind_eq_bind, Option.bind_eq_some_iff, Option.pure_def,
      Option.some.injEq] at made
    obtain ⟨_, _, others, there, rfl⟩ := made
    simp [length_of_mapM there]

/-- A field of a content is the content of the field of that name. -/
theorem get?_of_mapM :
    ∀ {fields : Fields Value} {contents : Fields Content},
      (fields.mapM fun field => do
        return (field.1, ← heap.contentWithin depth field.2)) = some contents →
      ∀ name, Fields.get? contents name = (Fields.get? fields name).bind (heap.contentWithin depth)
  | [], contents, made, name => by
    simp only [List.mapM_nil] at made
    cases made
    rfl
  | (other, value) :: rest, contents, made, name => by
    simp only [List.mapM_cons, Option.bind_eq_bind, Option.bind_eq_some_iff, Option.pure_def,
      Option.some.injEq] at made
    obtain ⟨_, ⟨content, here, rfl⟩, others, there, rfl⟩ := made
    rw [Fields.get?_cons, Fields.get?_cons]
    split
    · simp [here]
    · exact get?_of_mapM (by simpa using there) name

/-- Each field of a record with a content has a content. -/
theorem isSome_of_mapM :
    ∀ {fields : Fields Value} {contents : Fields Content},
      (fields.mapM fun field => do
        return (field.1, ← heap.contentWithin depth field.2)) = some contents →
      ∀ name value, Fields.get? fields name = some value →
        (heap.contentWithin depth value).isSome
  | [], _, _, _, _, found => by simp at found
  | (other, value) :: rest, contents, made, name, part, found => by
    simp only [List.mapM_cons, Option.bind_eq_bind, Option.bind_eq_some_iff, Option.pure_def,
      Option.some.injEq] at made
    obtain ⟨_, ⟨content, here, _⟩, others, there, _⟩ := made
    rw [Fields.get?_cons] at found
    split at found
    · cases found
      simp [here]
    · exact isSome_of_mapM (by simpa using there) name part found

/-- The content of a value, one level down. -/
theorem contentWithin_succ_eq_some {value : Value} {content : Content}
    (read : heap.contentWithin (depth + 1) value = some content) :
    match value with
    | .scalar x => content = .scalar x
    | .record fields => ∃ contents,
        (fields.mapM fun field => do
          return (field.1, ← heap.contentWithin depth field.2)) = some contents ∧
        content = .record contents
    | .array items => ∃ contents,
        items.mapM (heap.contentWithin depth) = some contents ∧ content = .array contents
    | .seq address => ∃ contents,
        (heap.read address).mapM (heap.contentWithin depth) = some contents ∧
        content = .seq contents
    | .unset => content = .unset
    | .slot concrete value => ∃ inner,
        heap.contentWithin depth value = some inner ∧ content = .slot concrete inner := by
  cases value with
  | scalar x => simpa [contentWithin, eq_comm] using read
  | unset => simpa [contentWithin, eq_comm] using read
  | record fields =>
    obtain ⟨contents, there, made⟩ := Option.bind_eq_some_iff.1 read
    exact ⟨contents, there, (Option.some.inj made).symm⟩
  | array items =>
    obtain ⟨contents, there, made⟩ := Option.bind_eq_some_iff.1 read
    exact ⟨contents, there, (Option.some.inj made).symm⟩
  | seq address =>
    obtain ⟨contents, there, made⟩ := Option.bind_eq_some_iff.1 read
    exact ⟨contents, there, (Option.some.inj made).symm⟩
  | slot concrete value =>
    obtain ⟨inner, there, made⟩ := Option.bind_eq_some_iff.1 read
    exact ⟨inner, there, (Option.some.inj made).symm⟩

mutual
/-- A value with a content has no other content than that, up to equality. -/
theorem hasContent_eq_equal :
    ∀ (expected : Content) {value : Value} {depth : Nat} {content : Content},
      heap.contentWithin depth value = some content →
      heap.hasContent expected value = expected.equal content
  | _, _, 0, _, read => by simp [contentWithin] at read
  | .scalar _, value, depth + 1, _, read => by
    cases value with
    | scalar | unset => cases contentWithin_succ_eq_some read; rfl
    | record | array | seq | slot => obtain ⟨_, _, rfl⟩ := contentWithin_succ_eq_some read; rfl
  | .unset, value, depth + 1, _, read => by
    cases value with
    | scalar | unset => cases contentWithin_succ_eq_some read; rfl
    | record | array | seq | slot => obtain ⟨_, _, rfl⟩ := contentWithin_succ_eq_some read; rfl
  | .record expected, value, depth + 1, _, read => by
    cases value with
    | record fields =>
      obtain ⟨contents, there, rfl⟩ := contentWithin_succ_eq_some read
      simp only [hasContent, Content.equal, length_of_mapM there,
        haveContents_eq_equalFields expected (get?_of_mapM there) (isSome_of_mapM there)]
    | scalar | unset => cases contentWithin_succ_eq_some read; rfl
    | array | seq | slot => obtain ⟨_, _, rfl⟩ := contentWithin_succ_eq_some read; rfl
  | .array expected, value, depth + 1, _, read => by
    cases value with
    | array items =>
      obtain ⟨contents, there, rfl⟩ := contentWithin_succ_eq_some read
      simp only [hasContent, Content.equal, allHaveContents_eq_equalItems expected there]
    | scalar | unset => cases contentWithin_succ_eq_some read; rfl
    | record | seq | slot => obtain ⟨_, _, rfl⟩ := contentWithin_succ_eq_some read; rfl
  | .seq expected, value, depth + 1, _, read => by
    cases value with
    | seq address =>
      obtain ⟨contents, there, rfl⟩ := contentWithin_succ_eq_some read
      simp only [hasContent, Content.equal, allHaveContents_eq_equalItems expected there]
    | scalar | unset => cases contentWithin_succ_eq_some read; rfl
    | record | array | slot => obtain ⟨_, _, rfl⟩ := contentWithin_succ_eq_some read; rfl
  | .slot name expected, value, depth + 1, _, read => by
    cases value with
    | slot concrete value =>
      obtain ⟨inner, there, rfl⟩ := contentWithin_succ_eq_some read
      simp only [hasContent, Content.equal, hasContent_eq_equal expected there]
    | scalar | unset => cases contentWithin_succ_eq_some read; rfl
    | record | array | seq => obtain ⟨_, _, rfl⟩ := contentWithin_succ_eq_some read; rfl

theorem haveContents_eq_equalFields :
    ∀ (expected : List (String × Content)) {fields : Fields Value} {contents : Fields Content}
      {depth : Nat},
      (∀ name, Fields.get? contents name =
        (Fields.get? fields name).bind (heap.contentWithin depth)) →
      (∀ name value, Fields.get? fields name = some value →
        (heap.contentWithin depth value).isSome) →
      heap.haveContents expected fields = Content.equalFields expected contents
  | [], _, _, _, _, _ => rfl
  | (name, content) :: rest, fields, contents, depth, found, readable => by
    simp only [haveContents, Content.equalFields,
      haveContents_eq_equalFields rest found readable, found name]
    cases there : Fields.get? fields name with
    | none => rfl
    | some value =>
      obtain ⟨inner, read⟩ := Option.isSome_iff_exists.1 (readable name value there)
      simp only [Option.bind_some, read, hasContent_eq_equal content read]

theorem allHaveContents_eq_equalItems :
    ∀ (expected : List Content) {items : List Value} {contents : List Content} {depth : Nat},
      items.mapM (heap.contentWithin depth) = some contents →
      heap.allHaveContents expected items = Content.equalItems expected contents
  | expected, [], contents, _, made => by
    simp only [List.mapM_nil] at made
    cases made
    cases expected <;> rfl
  | [], value :: items, contents, _, made => by
    simp only [List.mapM_cons, Option.bind_eq_bind, Option.bind_eq_some_iff, Option.pure_def,
      Option.some.injEq] at made
    obtain ⟨_, _, _, _, rfl⟩ := made
    rfl
  | content :: rest, value :: items, contents, _, made => by
    simp only [List.mapM_cons, Option.bind_eq_bind, Option.bind_eq_some_iff, Option.pure_def,
      Option.some.injEq] at made
    obtain ⟨inner, here, others, there, rfl⟩ := made
    simp only [allHaveContents, Content.equalItems, hasContent_eq_equal content here,
      allHaveContents_eq_equalItems rest there]
end

end CopySynth.Heap
