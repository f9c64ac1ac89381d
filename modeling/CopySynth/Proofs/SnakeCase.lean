import CopySynth.Naming.SnakeCase
import Mathlib.Data.List.Chain

/-!
# Snake case, applied again

A name in snake case has no hyphens and no spaces. Of its capitals those of ASCII are lowered; the
others stay, and they are the only ones that are left. A second pass sees a small letter where the
first one lowered a capital, so that it sets an underscore before a kept capital behind it. In all
other places it finds what it would write. A third pass changes nothing.
-/

namespace CopySynth.Naming

open Text

/-- A capital beyond ASCII, which is not lowered. -/
def keepsCase (c : Char) : Bool := isUppercase c && !c.isUpper

/-- No capital that is lowered stands right before one that is kept. -/
def Settled (cs : List Char) : Prop := cs.IsChain fun a b => a.isUpper = true → keepsCase b = false

variable {c : Char} {cs rest : List Char} {again afterWord : Bool}

/-! ## Lowered and kept capitals -/

theorem isUpper_iff : c.isUpper = true ↔ 65 ≤ c.toNat ∧ c.toNat ≤ 90 := decide_eq_true_iff

theorem isLower_iff : c.isLower = true ↔ 97 ≤ c.toNat ∧ c.toNat ≤ 122 :=
  Bool.and_eq_true_iff.trans (and_congr decide_eq_true_iff decide_eq_true_iff)

theorem toNat_toLower (h : c.isUpper = true) : c.toLower.toNat = c.toNat + 32 := by
  have hrange := isUpper_iff.mp h
  have hlowered : c.toLower.toNat = (c.val + 32).toNat := congrArg Char.toNat (dif_pos hrange)
  rw [hlowered, UInt32.toNat_add, Char.toNat_val]
  exact Nat.mod_eq_of_lt (show c.toNat + 32 < 2 ^ 32 by omega)

theorem toLower_of_not_isUpper (h : c.isUpper = false) : c.toLower = c := by
  refine dif_neg fun hrange => ?_
  rw [isUpper_iff.mpr hrange] at h
  cases h

theorem isLower_toLower (h : c.isUpper = true) : c.toLower.isLower = true := by
  have hrange := isUpper_iff.mp h
  rw [isLower_iff, toNat_toLower h]
  omega

theorem isUppercase_of_isUpper (h : c.isUpper = true) : isUppercase c = true := by
  have hrange := isUpper_iff.mp h
  exact (uppercase.contains_ascii (by omega)).trans h

/-- A small letter of ASCII is no capital and ends a word. -/
theorem small_of_isLower (h : c.isLower = true) : isUppercase c = false ∧ endsWord c = true := by
  have hrange := isLower_iff.mp h
  have hascii : c.toNat < 128 := by omega
  constructor
  · have hno : ¬ c.isUpper = true := by
      rw [isUpper_iff]
      omega
    exact (uppercase.contains_ascii hascii).trans (eq_false_of_ne_true hno)
  · have hlower : isLowercase c = true := (lowercase.contains_ascii hascii).trans h
    rw [endsWord, hlower, Bool.true_or]

/-- A capital is lowered or kept. -/
theorem capital_cases (h : isUppercase c = true) :
    (c.isUpper = true ∧ keepsCase c = false ∧ c.toLower.isLower = true) ∨
      (c.isUpper = false ∧ keepsCase c = true ∧ c.toLower = c) := by
  cases hu : c.isUpper with
  | true => exact .inl ⟨rfl, by simp [keepsCase, hu], isLower_toLower hu⟩
  | false => exact .inr ⟨rfl, by simp [keepsCase, h, hu], toLower_of_not_isUpper hu⟩

/-- No letter is a separator. -/
theorem ne_separator_of_letter (h : isUppercase c = true ∨ c.isLower = true) :
    c ≠ '-' ∧ c ≠ ' ' := by
  constructor
  · rintro rfl
    rcases h with h | h <;> cases h
  · rintro rfl
    rcases h with h | h <;> cases h

theorem toLower_ne_separator (h : isUppercase c = true) : c.toLower ≠ '-' ∧ c.toLower ≠ ' ' := by
  rcases capital_cases h with ⟨_, _, hl⟩ | ⟨_, _, hl⟩
  · exact ne_separator_of_letter (.inr hl)
  · rw [hl]
    exact ne_separator_of_letter (.inl h)

/-! ## One pass -/

/-- Neither hyphens nor spaces are written. -/
theorem not_separator_of_mem_snakeChars :
    ∀ d ∈ snakeChars afterWord cs, d ≠ '-' ∧ d ≠ ' ' := by
  fun_induction snakeChars afterWord cs with
  | case1 => exact fun d hd => absurd hd List.not_mem_nil
  | case2 _ c rest _ ih => exact List.forall_mem_cons.mpr ⟨by decide, ih⟩
  | case3 c rest _ hu ih =>
    exact List.forall_mem_cons.mpr
      ⟨by decide, List.forall_mem_cons.mpr ⟨toLower_ne_separator hu, ih⟩⟩
  | case4 _ c rest _ hu _ ih =>
    exact List.forall_mem_cons.mpr ⟨toLower_ne_separator hu, ih⟩
  | case5 _ c rest hs _ ih =>
    exact List.forall_mem_cons.mpr ⟨by simpa using hs, ih⟩

/-- A capital is written as a capital just when it is kept. -/
theorem filter_toLower_cons {written : List Char} (hu : isUppercase c = true)
    (h : written.filter isUppercase = rest.filter keepsCase) :
    (c.toLower :: written).filter isUppercase = (c :: rest).filter keepsCase := by
  rcases capital_cases hu with ⟨_, hk, hl⟩ | ⟨_, hk, hl⟩
  · rw [List.filter_cons_of_neg (by simp [(small_of_isLower hl).1]),
      List.filter_cons_of_neg (by simp [hk]), h]
  · rw [hl, List.filter_cons_of_pos hu, List.filter_cons_of_pos hk, h]

/-- The capitals that are written are those that are kept. -/
theorem filter_snakeChars :
    (snakeChars afterWord cs).filter isUppercase = cs.filter keepsCase := by
  have hunderscore : ¬ isUppercase '_' = true := Bool.false_ne_true
  fun_induction snakeChars afterWord cs with
  | case1 => rfl
  | case2 _ c rest hs ih =>
    have hk : ¬ keepsCase c = true := by
      rcases (by simpa using hs : c = '-' ∨ c = ' ') with rfl | rfl <;> exact Bool.false_ne_true
    rw [List.filter_cons_of_neg hunderscore, List.filter_cons_of_neg hk, ih]
  | case3 c rest _ hu ih =>
    rw [List.filter_cons_of_neg hunderscore]
    exact filter_toLower_cons hu ih
  | case4 _ c rest _ hu _ ih => exact filter_toLower_cons hu ih
  | case5 _ c rest _ hu ih =>
    have hk : ¬ keepsCase c = true := fun hk => hu (Bool.and_eq_true_iff.mp hk).1
    rw [List.filter_cons_of_neg hu, List.filter_cons_of_neg hk, ih]

/-! ## Two passes -/

theorem snakeChars_capital (hu : isUppercase c = true) :
    snakeChars again (c :: rest) =
      (if again then ['_'] else []) ++ c.toLower :: snakeChars false rest := by
  have hs : (c == '-' || c == ' ') = false := by
    simpa using ne_separator_of_letter (.inl hu)
  rw [snakeChars, hs, hu]
  cases again <;> rfl

theorem snakeChars_other (hs : ¬ (c == '-' || c == ' ') = true) (hu : ¬ isUppercase c = true) :
    snakeChars again (c :: rest) = c :: snakeChars (endsWord c) rest := by
  rw [snakeChars, if_neg hs, if_neg hu]

theorem settled_cons_iff :
    Settled (c :: rest) ↔
      (c.isUpper = true → ∀ d ∈ rest.head?, keepsCase d = false) ∧ Settled rest := by
  rw [Settled, List.isChain_cons]
  exact and_congr_left fun _ => ⟨fun h hc d hd => h d hd hc, fun h d hd hc => h hc d hd⟩

theorem settled_cons_of_not_isUpper (h : c.isUpper = false) :
    Settled (c :: rest) ↔ Settled rest := by
  simp [settled_cons_iff, h]

/-- Right after a small letter a kept capital gets an underscore. -/
theorem snakeChars_true_ne (hk : keepsCase c = true) :
    snakeChars true (snakeChars false (c :: rest)) ≠ snakeChars false (c :: rest) := by
  have hu := (Bool.and_eq_true_iff.mp hk).1
  have hl : c.toLower = c := by
    rcases capital_cases hu with ⟨_, hno, _⟩ | ⟨_, _, hl⟩
    · rw [hk] at hno
      cases hno
    · exact hl
  have hfirst : snakeChars false (c :: rest) = c :: snakeChars false rest := by
    rw [snakeChars_capital hu, hl]
    rfl
  rw [hfirst, snakeChars_capital hu]
  intro h
  obtain rfl : '_' = c := (List.cons.inj h).1
  cases hk

/-- After a capital was written, in small or not, the second pass finds what it would write just
when no lowered capital stands before a kept one. -/
theorem snakeChars_toLower_cons_iff (hu : isUppercase c = true)
    (hc : again = true → keepsCase c = false)
    (ih : ∀ again, (again = true → ∀ d ∈ rest.head?, keepsCase d = false) →
      (snakeChars again (snakeChars false rest) = snakeChars false rest ↔ Settled rest)) :
    snakeChars again (c.toLower :: snakeChars false rest) = c.toLower :: snakeChars false rest ↔
      Settled (c :: rest) := by
  rcases capital_cases hu with ⟨hup, _, hl⟩ | ⟨hup, hk, hl⟩
  · obtain ⟨hsmall, hends⟩ := small_of_isLower hl
    have hs : ¬ (c.toLower == '-' || c.toLower == ' ') = true := by
      simpa using toLower_ne_separator hu
    rw [snakeChars_other hs (by simp [hsmall]), hends, List.cons_inj_right, settled_cons_iff]
    by_cases hd : ∀ d ∈ rest.head?, keepsCase d = false
    · rw [ih true fun _ => hd]
      exact ⟨fun h => ⟨fun _ => hd, h⟩, fun h => h.2⟩
    · refine iff_of_false ?_ fun h => hd (h.1 hup)
      push Not at hd
      obtain ⟨d, hd, hkept⟩ := hd
      obtain ⟨more, rfl⟩ := List.head?_eq_some_iff.mp hd
      exact snakeChars_true_ne (by simpa using hkept)
  · have hno : again = false := by
      cases again with
      | false => rfl
      | true =>
        rw [hc rfl] at hk
        cases hk
    rw [hl, hno, snakeChars_capital hu, hl, settled_cons_of_not_isUpper hup, ← ih false (by simp)]
    exact List.cons_inj_right c

/-- The second pass finds what it would write just when no lowered capital stands before a kept one.
It may begin behind a small letter where the first one did not, unless a kept capital comes next. -/
theorem snakeChars_snakeChars_iff
    (h : again = true → afterWord = false → ∀ d ∈ cs.head?, keepsCase d = false) :
    snakeChars again (snakeChars afterWord cs) = snakeChars afterWord cs ↔ Settled cs := by
  have hunderscore : ∀ again rest, snakeChars again ('_' :: rest) = '_' :: snakeChars false rest :=
    fun _ _ => rfl
  -- by the cases of the first pass, over all states in which the second one can come to them
  fun_induction snakeChars afterWord cs generalizing again with
  | case1 => exact ⟨fun _ => .nil, fun _ => rfl⟩
  | case2 _ c rest hs ih =>
    have hup : c.isUpper = false := by
      rcases (by simpa using hs : c = '-' ∨ c = ' ') with rfl | rfl <;> rfl
    rw [hunderscore, List.cons_inj_right, settled_cons_of_not_isUpper hup]
    exact ih (by simp)
  | case3 c rest _ hu ih =>
    rw [hunderscore, List.cons_inj_right]
    exact snakeChars_toLower_cons_iff hu (by simp) fun again hd => ih fun ha _ => hd ha
  | case4 _ c rest _ hu ha ih =>
    refine snakeChars_toLower_cons_iff hu (fun hagain => ?_) fun again hd => ih fun ha _ => hd ha
    exact h hagain (by simpa using ha) c rfl
  | case5 _ c rest hs hu ih =>
    have hup : c.isUpper = false := by
      cases hup : c.isUpper with
      | false => rfl
      | true => exact absurd (isUppercase_of_isUpper hup) hu
    rw [snakeChars_other hs hu, List.cons_inj_right, settled_cons_of_not_isUpper hup]
    exact ih fun ha hb => by
      rw [ha] at hb
      cases hb

/-- No capital is left that would be lowered. -/
theorem settled_snakeChars : Settled (snakeChars afterWord cs) := by
  have hlowered : ∀ d ∈ snakeChars afterWord cs, d.isUpper = false := by
    intro d hd
    cases hup : d.isUpper with
    | false => rfl
    | true =>
      have hm : d ∈ (snakeChars afterWord cs).filter isUppercase :=
        List.mem_filter.mpr ⟨hd, isUppercase_of_isUpper hup⟩
      rw [filter_snakeChars] at hm
      have hkept := (Bool.and_eq_true_iff.mp (List.mem_filter.mp hm).2).2
      simp [hup] at hkept
  refine (List.pairwise_of_forall_mem_list fun a ha b _ hup => ?_).isChain
  rw [hlowered a ha] at hup
  cases hup

theorem toList_snakeCase (name : String) :
    (snakeCase name).toList = snakeChars false name.toList := String.toList_ofList

theorem snakeCase_snakeCase_iff (name : String) :
    snakeCase (snakeCase name) = snakeCase name ↔ Settled name.toList := by
  rw [← String.toList_inj, toList_snakeCase, toList_snakeCase]
  exact snakeChars_snakeChars_iff (by simp)

/-- A name in snake case has no hyphen and no space, and of the capitals of the name it has those
beyond ASCII, in their order. It is the snake case of itself exactly when no other capital stands
right before one of these in the name; the snake case of it always is. -/
theorem snakeCase_settles (name : String) :
    ('-' ∉ (snakeCase name).toList ∧ ' ' ∉ (snakeCase name).toList) ∧
    (snakeCase name).toList.filter isUppercase = name.toList.filter keepsCase ∧
    (snakeCase (snakeCase name) = snakeCase name ↔ Settled name.toList) ∧
    snakeCase (snakeCase (snakeCase name)) = snakeCase (snakeCase name) := by
  refine ⟨?_, ?_, snakeCase_snakeCase_iff name, ?_⟩
  · rw [toList_snakeCase]
    exact ⟨fun h => (not_separator_of_mem_snakeChars _ h).1 rfl,
      fun h => (not_separator_of_mem_snakeChars _ h).2 rfl⟩
  · rw [toList_snakeCase]
    exact filter_snakeChars
  · rw [snakeCase_snakeCase_iff, toList_snakeCase]
    exact settled_snakeChars

/-- A capital beyond ASCII stays, also behind one that is lowered, and then the second pass sets an
underscore between the two. -/
theorem snakeCase_accented :
    snakeCase "École" = "École" ∧ isUppercase 'É' = true ∧
      snakeCase "AÉ" = "aÉ" ∧ snakeCase (snakeCase "AÉ") = "a_É" := by
  decide +kernel

end CopySynth.Naming
