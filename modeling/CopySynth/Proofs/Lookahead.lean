import CopySynth.Proofs.GrammarLaws

/-!
# Looking ahead at a boundary

What the reading of operators looks for at the front of the tokens it finds there exactly when it
was in front of the boundary, for no symbol but an ampersand goes on into it.
-/

namespace CopySynth.Code

variable {α : Type} {s t : List Token}

/-- Whether what stands behind an operand may begin with this token. -/
def Token.standsBehind : Token → Bool
  | .closing _ => true
  | .symbol char joined => char == '&' && joined
  | _ => false

theorem afterChars_cons_append {c : Char} {chars : List Char} {token : Token}
    (h : afterChars chars (t ++ s) = (afterChars chars t).map (· ++ s)) :
    afterChars (c :: chars) (token :: t ++ s) =
      (afterChars (c :: chars) (token :: t)).map (· ++ s) := by
  cases token with
  | symbol d joined =>
    cases chars with
    | nil => simp only [List.cons_append, afterChars]; split <;> rfl
    | cons c' chars =>
      cases joined <;> simp only [List.cons_append, afterChars]
      · rfl
      · split
        · exact h
        · rfl
  | _ => simp [afterChars]

namespace Boundary

variable (hs : Boundary s)
include hs

theorem afterChars_eq_none {c : Char} {chars : List Char} (hc : c ≠ '&') :
    afterChars (c :: chars) s = none := by
  cases hs <;> cases chars <;> simp [afterChars, hc]

theorem afterChars_append {chars : List Char} (h : '&' ∉ chars) (t : List Token) :
    afterChars chars (t ++ s) = (afterChars chars t).map (· ++ s) := by
  induction chars generalizing t with
  | nil => simp [afterChars]
  | cons c chars ih =>
    rw [List.mem_cons, not_or] at h
    cases t with
    | nil =>
      rw [List.nil_append, hs.afterChars_eq_none (Ne.symm h.1)]
      cases chars <;> rfl
    | cons token t => exact afterChars_cons_append (ih h.2 t)

/-- A symbol without an ampersand does not begin behind a piece of code. -/
theorem after_append {text : String} (h : '&' ∉ text.toList) (t : List Token) :
    after text (t ++ s) = (after text t).map (· ++ s) := hs.afterChars_append h t

theorem begins_append {text : String} (h : '&' ∉ text.toList) (t : List Token) :
    begins text (t ++ s) = begins text t := by
  rw [begins, hs.after_append h, Option.isSome_map]; rfl

theorem beginsPoint_append (t : List Token) : beginsPoint (t ++ s) = beginsPoint t := by
  simp (disch := decide) only [beginsPoint, hs.begins_append]

theorem beginsWord_append (word : String) (t : List Token) :
    beginsWord word (t ++ s) = beginsWord word t := by
  cases t with
  | nil => cases hs <;> rfl
  | cons token t => cases token <;> rfl

theorem refusesCast_append (t : List Token) : refusesCast (t ++ s) = refusesCast t := by
  simp (disch := decide) only [refusesCast, hs.beginsPoint_append, hs.begins_append]
  congr 1
  match t with
  | [] => cases hs <;> rfl
  | token :: rest =>
    cases token with
    | opening bracket => cases bracket <;> rfl
    | _ => rfl

/-- A token that does not begin what stands behind belongs to what stands before it. -/
theorem append_eq_cons {token : Token} {rest : List Token} (h : t ++ s = token :: rest)
    (ha : token.standsBehind = false) : ∃ t', t = token :: t' ∧ rest = t' ++ s := by
  rcases List.append_eq_cons_iff.mp h with ⟨-, rfl⟩ | h
  · cases hs <;> cases ha
  · exact h

end Boundary

/-! ## Where an expression may end -/

theorem Ends.of_cons {token : Token} : Ends (token :: t) s := .inl (List.cons_ne_nil _ _)

theorem Ends.atEnd (h : Ends [] s) : atEnd s := h.resolve_left fun h => h rfl

theorem Ends.atEnd_append (h : Ends t s) :
    CopySynth.Code.atEnd (t ++ s) = CopySynth.Code.atEnd t := by
  cases t with
  | nil => exact h.atEnd
  | cons token t => cases token <;> rfl

namespace Boundary

variable (hs : Boundary s)
include hs

theorem after_append_of_ends (h : Ends t s) {text : String} (ht : '&' ∉ text.toList.tail) :
    after text (t ++ s) = (after text t).map (· ++ s) := by
  unfold after
  cases hc : text.toList with
  | nil => rfl
  | cons c chars =>
    rw [hc] at ht
    cases t with
    | nil =>
      have he := h.atEnd
      cases hs with
      | nothing | bracket => cases chars <;> rfl
      | conjunct => cases he
    | cons token t => exact afterChars_cons_append (hs.afterChars_append ht t)

theorem begins_append_of_ends (h : Ends t s) {text : String} (ht : '&' ∉ text.toList.tail) :
    begins text (t ++ s) = begins text t := by
  rw [begins, hs.after_append_of_ends h ht, Option.isSome_map]; rfl

/-- A single ampersand that is joined to what stands behind would be read with it. -/
theorem after_and_append (h : Ends t s) (ht : t ≠ [.symbol '&' true] ∨ atEnd s) :
    after "&&" (t ++ s) = (after "&&" t).map (· ++ s) := by
  match t with
  | [] =>
    have he := h.atEnd
    cases hs with
    | nothing | bracket => rfl
    | conjunct => cases he
  | [token] =>
    cases hs with
    | nothing | bracket => exact afterChars_cons_append rfl
    | conjunct joined rest =>
      have hne : token ≠ .symbol '&' true := by simpa [atEnd] using ht
      cases token with
      | symbol char joined =>
        cases joined with
        | false => rfl
        | true =>
          have hc : '&' ≠ char := fun h => hne (h ▸ rfl)
          simp [after, afterChars, hc]
      | _ => rfl
  | token :: next :: t =>
    exact afterChars_cons_append (afterChars_cons_append (by simp [afterChars]))

theorem read?_append (h : Ends t s) (ht : t ≠ [.symbol '&' true] ∨ atEnd s) :
    BinaryOp.read? (t ++ s) = (BinaryOp.read? t).map (before s) := by
  have hop (op : BinaryOp) : after op.text (t ++ s) = (after op.text t).map (· ++ s) := by
    by_cases hop : op = .and
    · subst hop
      exact hs.after_and_append h ht
    · refine hs.after_append_of_ends h ?_
      revert hop
      cases op <;> decide
  unfold BinaryOp.read?
  rw [hs.begins_append (by decide)]
  split
  · rfl
  · rw [List.map_findSome?]
    congr 1
    funext op
    simp only [hop, Function.comp_apply, Option.map_map]
    rfl

theorem nextLevel_append (h : Ends t s) (ht : t ≠ [.symbol '&' true] ∨ atEnd s) :
    nextLevel (t ++ s) = nextLevel t := by
  unfold nextLevel
  rw [hs.read?_append h ht]
  cases BinaryOp.read? t with
  | none => simp (disch := decide) only [Option.map_none, hs.begins_append, hs.beginsWord_append]
  | some read => rfl

theorem rangeSign_append (t : List Token) : rangeSign (t ++ s) = (rangeSign t).map (before s) := by
  unfold rangeSign
  rw [hs.after_append (by decide), hs.begins_append (by decide), hs.after_append (by decide)]
  cases after "..=" t with
  | some rest => rfl
  | none =>
    simp only [Option.map_none]
    split
    · rfl
    · cases after ".." t <;> rfl

theorem endsRange_append (h : Ends t s) : endsRange (t ++ s) = endsRange t := by
  simp (disch := decide) only [endsRange, h.atEnd_append, hs.beginsPoint_append,
    hs.beginsWord_append, List.any_cons, List.any_nil, hs.begins_append_of_ends h]

theorem exists_conjunct (h : ¬ atEnd s) :
    ∃ joined rest, s = .symbol '&' true :: .symbol '&' joined :: rest := by
  cases hs with
  | nothing | bracket => exact (h rfl).elim
  | conjunct joined rest => exact ⟨joined, rest, rfl⟩

end Boundary

theorem hends_cases (h : ¬ Ends t s) : t = [] ∧ ¬ atEnd s :=
  ⟨Decidable.of_not_not fun ht => h (.inl ht), fun hs => h (.inr hs)⟩

end CopySynth.Code
