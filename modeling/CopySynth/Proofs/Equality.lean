import CopySynth.Proofs.Contents
import CopySynth.Value.Comparison

/-!
# Comparing contents and finite values

Equality of contents is decided by all their parts. It is the same from either side as long as field
names are distinct; a record that repeats a name is not told apart from all sides.

A comparison of values goes no deeper than the content of the left one, so that it ends within the
bound whenever that value is finite. Between finite values it is the equality of their contents.
-/

namespace CopySynth

theorem Binary64.equal_comm (x y : Binary64) : x.equal y = y.equal x := by
  rw [equal, equal, Bool.and_comm (!x.isNaN), BEq.comm (a := x.bits),
    Bool.and_comm (x.magnitude == 0)]

theorem Scalar.equal_comm (x y : Scalar) : x.equal y = y.equal x := by
  cases x with
  | float x =>
    cases y with
    | float y => exact x.equal_comm y
    | bool | int | text | token => rfl
  | bool x | int x | text x | token x =>
    cases y with
    | bool | int | float | text | token => first | rfl | exact BEq.comm

/-- A scalar equals itself unless it is no number. -/
theorem Scalar.equal_self {x : Scalar} (h : ∀ y, x = .float y → y.isNaN = false) :
    x.equal x = true := by
  cases x with
  | float y => simp [equal, Binary64.equal, h y rfl]
  | bool | int | text | token => exact beq_self_eq_true _

namespace Content

theorem equalItems_self {xs : List Content} (h : ∀ x ∈ xs, x.equal x = true) :
    equalItems xs xs = true := by
  induction xs with
  | nil => rfl
  | cons x xs ih =>
    rw [equalItems, h x List.mem_cons_self, ih fun y hy => h y (List.mem_cons_of_mem _ hy),
      Bool.and_true]

theorem equalItems_comm {xs ys : List Content}
    (h : ∀ x ∈ xs, ∀ y ∈ ys, x.equal y = y.equal x) : equalItems xs ys = equalItems ys xs := by
  induction xs generalizing ys with
  | nil => cases ys <;> rfl
  | cons x xs ih =>
    cases ys with
    | nil => rfl
    | cons y ys =>
      rw [equalItems, equalItems, h x List.mem_cons_self y List.mem_cons_self,
        ih fun x hx y hy => h x (List.mem_cons_of_mem _ hx) y (List.mem_cons_of_mem _ hy)]

theorem equalItems_replicate {n : Nat} {x : Content} {ys : List Content} (h : ys.length = n) :
    equalItems (List.replicate n x) ys = ys.all x.equal := by
  induction ys generalizing n with
  | nil =>
    subst h
    rfl
  | cons y ys ih =>
    subst h
    rw [List.length_cons, List.replicate_succ, equalItems, List.all_cons, ih rfl]

theorem equal_seq_nil_comm (x : Content) : (Content.seq []).equal x = x.equal (.seq []) := by
  cases x with
  | seq items => exact equalItems_comm fun x hx => absurd hx List.not_mem_nil
  | scalar | record | array | unset | slot => rfl

theorem equalFields_eq_all (xs ys : Fields Content) :
    equalFields xs ys = xs.all fun field =>
      ((Fields.get? ys field.1).map field.2.equal).getD false := by
  induction xs with
  | nil => rfl
  | cons field xs ih =>
    rw [equalFields, List.all_cons, ih]
    cases Fields.get? ys field.1 <;> rfl

theorem equalFields_iff {xs ys : Fields Content} :
    equalFields xs ys = true ↔
      ∀ name x, (name, x) ∈ xs → ∃ y, Fields.get? ys name = some y ∧ x.equal y = true := by
  rw [equalFields_eq_all, List.all_eq_true]
  constructor
  · intro h name x hx
    have hx := h (name, x) hx
    cases hy : Fields.get? ys name with
    | none => simp [hy] at hx
    | some y => exact ⟨y, rfl, by simpa [hy] using hx⟩
  · rintro h ⟨name, x⟩ hx
    obtain ⟨y, hy, he⟩ := h name x hx
    simp [hy, he]

/-- Records with the same distinct names are compared alike from either side. -/
theorem equalFields_comm {xs ys : Fields Content} (hx : (Fields.names xs).Nodup)
    (hp : (Fields.names ys).Perm (Fields.names xs))
    (h : ∀ name x y, (name, x) ∈ xs → (name, y) ∈ ys → x.equal y = y.equal x) :
    equalFields xs ys = equalFields ys xs := by
  -- distinct names on the other side too: each field there is met by the one of its name
  have hturn : ∀ as bs : Fields Content, as.names.Nodup → bs.names.Nodup →
      (∀ n ∈ bs.names, n ∈ as.names) →
      (∀ name a b, (name, a) ∈ as → (name, b) ∈ bs → a.equal b = b.equal a) →
      equalFields as bs = true → equalFields bs as = true := by
    intro as bs ha hb hsub hab he
    refine equalFields_iff.mpr fun name b hm => ?_
    obtain ⟨⟨name, a⟩, hma, rfl⟩ := List.mem_map.mp (hsub name (List.mem_map.mpr ⟨_, hm, rfl⟩))
    obtain ⟨b', hb', hequal⟩ := equalFields_iff.mp he name a hma
    rw [Fields.get?_of_mem hb hm] at hb'
    cases hb'
    exact ⟨a, Fields.get?_of_mem ha hma, by rw [← hab name a b hma hm, hequal]⟩
  have hy : (Fields.names ys).Nodup := hp.nodup_iff.mpr hx
  refine Bool.eq_iff_iff.mpr ⟨?_, ?_⟩
  · exact hturn xs ys hx hy (fun n hn => hp.mem_iff.mp hn) h
  · exact hturn ys xs hy hx (fun n hn => hp.mem_iff.mpr hn) fun name y x hm hm' =>
      (h name x y hm' hm).symm

/-- Contents that are unequal in place, or in some field or item that stands in the same place. -/
inductive Differs : Content → Content → Prop
  | here {x y} (h : x.equal y = false) : Differs x y
  | field {xs ys name x y} (hx : (name, x) ∈ xs) (hy : Fields.get? ys name = some y)
      (h : Differs x y) : Differs (.record xs) (.record ys)
  | item {xs ys : List Content} {i : Nat} {x y} (hx : xs[i]? = some x) (hy : ys[i]? = some y)
      (h : Differs x y) : Differs (.array xs) (.array ys)

/-- A difference at any depth makes contents unequal. -/
theorem Differs.equal_eq_false {x y : Content} (h : x.Differs y) : x.equal y = false := by
  induction h with
  | here h => exact h
  | @field xs ys name x y hx hy _ ih =>
    refine Bool.eq_false_iff.mpr fun he => ?_
    obtain ⟨y', hy', he⟩ := equalFields_iff.mp (Bool.and_eq_true_iff.mp he).2 name x hx
    rw [hy] at hy'
    cases hy'
    simp [ih] at he
  | @item xs ys i x y hx hy _ ih =>
    show equalItems xs ys = false
    induction xs generalizing ys i with
    | nil => simp at hx
    | cons x xs hxs =>
      cases ys with
      | nil => rfl
      | cons y ys =>
        rw [equalItems]
        cases i with
        | zero =>
          cases hx
          cases hy
          rw [ih, Bool.false_and]
        | succ i => rw [hxs hx hy, Bool.and_false]

end Content

namespace Heap

variable {heap : Heap} {depth : Nat}

/-- What is compared only under equal keys is equal when the keys are and the rest is. -/
theorem ite_eq_some_and {α : Type} [DecidableEq α] {a b : α} {rest : Option Bool} {answer : Bool}
    (h : rest = some answer) :
    (if a = b then rest else some false) = some (a == b && answer) := by
  by_cases he : a = b
  · rw [if_pos he, beq_iff_eq.mpr he, Bool.true_and, h]
  · rw [if_neg he, beq_eq_false_iff_ne.mpr he, Bool.false_and]

/-- Items are compared one by one, if there are as many on either side. -/
theorem itemsEqual_eq {f : Value → Value → Option Bool} {items : List Value}
    {contents : List Content}
    (h : List.Forall₂ (fun item content =>
      ∀ other, f item other = some (heap.hasContent content other)) items contents)
    (others : List Value) :
    (if items.length = others.length then (items.zip others).allM fun pair => f pair.1 pair.2
      else some false) = some (heap.allHaveContents contents others) := by
  induction h generalizing others with
  | nil => cases others <;> rfl
  | @cons item content items contents hi _ ih =>
    cases others with
    | nil => rfl
    | cons other others =>
      have ih := ih others
      rw [allHaveContents, List.zip_cons_cons]
      by_cases hl : items.length = others.length
      · rw [if_pos hl] at ih
        rw [if_pos (show (item :: items).length = (other :: others).length by simp [hl])]
        exact allM_cons_eq_pure (hi other) ih
      · rw [if_neg hl] at ih
        rw [if_neg (show ¬(item :: items).length = (other :: others).length by simp [hl]),
          ← Option.some.inj ih, Bool.and_false]

/-- Fields are compared with those of their names. -/
theorem fieldsEqual_eq {f : Value → Value → Option Bool} {fields : Fields Value}
    {contents : List Content}
    (h : List.Forall₂ (fun item content =>
      ∀ other, f item other = some (heap.hasContent content other)) (fields.map Prod.snd) contents)
    (others : Fields Value) :
    (fields.allM fun field => match Fields.get? others field.1 with
      | some other => f field.2 other
      | none => some false) =
    some (heap.haveContents (fields.names.zip contents) others) := by
  induction fields generalizing contents with
  | nil => rfl
  | cons field fields ih =>
    obtain ⟨content, contents, hf, hrest, rfl⟩ := List.forall₂_cons_left_iff.mp h
    rw [Fields.names_cons, List.zip_cons_cons, haveContents]
    refine allM_cons_eq_pure ?_ (ih hrest)
    cases others.get? field.1 with
    | none => rfl
    | some other => exact hf other

/-- A comparison asks whether the right value has the content of the left one. -/
theorem equalWithin_eq_hasContent {value : Value} {content : Content}
    (h : heap.contentWithin depth value = some content) (other : Value) :
    heap.equalWithin depth value other = some (heap.hasContent content other) := by
  induction depth generalizing value content other with
  | zero => simp [contentWithin] at h
  | succ depth ih =>
    obtain ⟨contents, hall, rfl⟩ := contentWithin_succ_iff.mp h
    have hparts := hall.imp fun part content hp => ih hp
    cases value with
    | scalar x => cases other <;> rfl
    | unset => cases other <;> rfl
    | slot concrete part =>
      obtain ⟨inner, _, hp, _, rfl⟩ := List.forall₂_cons_left_iff.mp hparts
      cases other with
      | slot another part' => exact ite_eq_some_and (hp part')
      | scalar | record | array | seq | unset => rfl
    | record fields =>
      cases other with
      | record others =>
        have hlen : ((Fields.names fields).zip contents).length = fields.length := by
          have hp : (fields.map Prod.snd).length = contents.length := hparts.length_eq
          rw [List.length_map] at hp
          simp [Fields.names, hp]
        show (if fields.length = others.length then _ else _) = some (_ == _ && _)
        rw [hlen]
        exact ite_eq_some_and (fieldsEqual_eq hparts others)
      | scalar | array | seq | unset | slot => rfl
    | array items =>
      cases other with
      | array others => exact itemsEqual_eq hparts others
      | scalar | record | seq | unset | slot => rfl
    | seq address =>
      cases other with
      | seq another => exact itemsEqual_eq hparts (heap.read another)
      | scalar | record | array | unset | slot => rfl

/-- Finite values are equal when their contents are. -/
theorem equal?_eq_some {value other : Value} {content another : Content}
    (h : heap.Stores value content) (h' : heap.Stores other another) :
    heap.equal? value other = some (content.equal another) := by
  have hwithin : heap.contentWithin (heap.depthBound value) value = some content :=
    content?_eq_some_iff.mpr h
  have hle : heap.depthBound value ≤ heap.depthBound value * heap.depthBound other :=
    Nat.le_mul_of_pos_right _ (Nat.succ_pos _)
  obtain ⟨depth, h'⟩ := h'
  rw [equal?, equalWithin_eq_hasContent (contentWithin_mono hle hwithin),
    hasContent_eq_equal content h']

/-- A growable sequence without elements has the content of one. -/
theorem length?_seq_eq {address : Nat} {content : Content}
    (hc : heap.Stores (.seq address) content) :
    (heap.length? (.seq address) == some 0) = (Content.seq []).equal content := by
  obtain ⟨contents, hall, rfl⟩ := Heap.stores_iff.mp hc
  have hlen : (heap.read address).length = contents.length := hall.length_eq
  show (some (heap.read address).length == some 0) = Content.equalItems [] contents
  rw [hlen]
  cases contents <;> rfl

theorem isUnset_eq {value : Value} {content : Content} (hc : heap.Stores value content) :
    value.isUnset = Content.unset.equal content := by
  obtain ⟨contents, _, rfl⟩ := Heap.stores_iff.mp hc
  cases value <;> rfl

end Heap

end CopySynth
