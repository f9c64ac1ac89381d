import CopySynth.Proofs.CopyClosure
import CopySynth.Proofs.Extension
import CopySynth.Proofs.ZeroClosure

/-!
# Runs over larger tables

Requests for types of a closed part of a table, and the turns of the copies they lead to, stay within
that part: every step has the result that it has over the part alone. The turns of the zero
predicates go through the whole table, but they add no copies.
-/

namespace CopySynth

namespace Synthesis

/-- The copy methods of both families, in order. -/
def copyMethods (synthesis : Synthesis) : List Method :=
  synthesis.methods.filter fun method => method.family ≠ .zeroPredicate

theorem copyMethods_addZero (synthesis : Synthesis) (type : String) (body : ZeroBody) :
    (synthesis.addZero type body).copyMethods = synthesis.copyMethods := by
  simp [copyMethods, addZero]

theorem copyMethods_markDiscovered (synthesis : Synthesis) (requested : List String) :
    (synthesis.markDiscovered requested).copyMethods = synthesis.copyMethods := by
  unfold copyMethods markDiscovered
  induction synthesis.methods with
  | nil => rfl
  | cons method methods ih =>
    by_cases hf : method.family = .zeroPredicate
    · simpa [hf] using ih
    · simpa [hf] using ih

end Synthesis

theorem foldlM_congr_of_mem {α β ε : Type} {f g : β → α → Except ε β} {xs : List α}
    (h : ∀ x ∈ xs, ∀ b, f b x = g b x) (b : β) : xs.foldlM f b = xs.foldlM g b := by
  induction xs generalizing b with
  | nil => rfl
  | cons x xs ih =>
    obtain ⟨hx, hxs⟩ := List.forall_mem_cons.mp h
    rw [List.foldlM_cons, List.foldlM_cons, hx]
    exact bind_congr fun b => ih hxs b

namespace Run

variable {table other : Table} {language : Code.Language} {config : Config} {roots : List String}
  {synthesis : Synthesis}

/-- The turns of the zero predicates add no copy methods. -/
theorem Turn.copyMethods_eq {run next : Run} {name : String}
    (h : Turn table .zeroPredicate run name next) :
    next.output.copyMethods = run.output.copyMethods := by
  cases h with
  | skipped => rfl
  | made _ _ _ hm =>
    obtain ⟨body, _, rfl⟩ := makeZero_cases hm
    cases body with
    | none => rfl
    | some body => exact Synthesis.copyMethods_addZero _ name body

/-- The copies of a finished run are those after the turns of the copies. -/
theorem copyPhases_of_synthesize (h : table.synthesize language config roots = .ok synthesis) :
    ∃ requested copied, (ascending roots).foldlM (addRoot table) {} = .ok requested ∧
      drain table .privateCopy (config.budget table.size) (table.size + 1) 0 requested =
        .ok copied ∧
      synthesis.copyMethods = copied.output.copyMethods ∧
      synthesis.copies = copied.output.copies ∧
      synthesis.capabilities = copied.output.capabilities := by
  obtain ⟨requested, copied, final, hq, hc, hf, rfl⟩ := phases_of_synthesize h
  obtain ⟨_, hturns, -⟩ := turns_of_drain hf
  have hsame := hturns.sameCopies
  have hmethods : final.output.copyMethods = copied.output.copyMethods :=
    hturns.keeps (P := fun _ run => run.output.copyMethods = copied.output.copyMethods)
      (fun _ _ _ _ hi ht => ht.copyMethods_eq.trans hi) [] rfl
  exact ⟨requested, copied, hq, hc,
    (Synthesis.copyMethods_markDiscovered _ _).trans hmethods,
    (Synthesis.copies_markDiscovered _ _).trans hsame.copies,
    (Synthesis.capabilities_markDiscovered _ _).trans hsame.capabilities⟩

section Sound

variable (h : table.Within other) (hv : table.validate language = .ok ())
  (hv' : other.validate language = .ok ())
include h hv hv'

theorem makeCopy_within {name : String} (hn : name ∈ table.names) (run : Run) (family : Family) :
    run.makeCopy other family name = run.makeCopy table family name := by
  rw [makeCopy_eq_of_resolve, makeCopy_eq_of_resolve, h.copyBody_eq hv hv' hn,
    h.resolve_eq hv hv' hn]

theorem makeZero_within {name : String} (hn : name ∈ table.names) (run : Run) :
    run.makeZero other name = run.makeZero table name := by
  rw [makeZero_eq, makeZero_eq, h.zeroBody_eq hv hv' hn]

theorem addRoot_within {root : String} (hn : root ∈ table.names) (run : Run) :
    addRoot other run root = addRoot table run root := by
  unfold addRoot
  rw [h.resolve_eq hv hv' hn]
  cases hr : table.resolve root "root list" with
  | error fault => simp only [lifted, error_bind]
  | ok found =>
    obtain ⟨name, shape⟩ := found
    have hn := Table.mem_names_of_get? (Table.get?_of_resolve hr)
    simp only [lifted, ok_bind, makeCopy_within h hv hv' hn, makeZero_within h hv hv' hn]

/-- The queue of the copies is worked off alike: whose turn it is was called by a copy, so that it
is a type of the smaller table. The budgets may differ as long as both are enough. -/
theorem drain_within {budget more turns made made' : Nat} {taken : List String}
    {run final final' : Run} (hi : CopiesMade table taken run)
    (hd : drain table .privateCopy budget turns made run = .ok final)
    (hd' : drain other .privateCopy more turns made' run = .ok final') : final' = final := by
  induction turns generalizing made made' taken run with
  | zero => exact (Except.ok.inj hd').symm.trans (Except.ok.inj hd)
  | succ turns ih =>
    rw [drain] at hd hd'
    cases hp : (run.work .privateCopy).pop? with
    | none =>
      simp only [hp] at hd hd'
      exact (Except.ok.inj hd').symm.trans (Except.ok.inj hd)
    | some head =>
      obtain ⟨name, rest⟩ := head
      obtain ⟨shape, hg, hb⟩ := hi.get?_of_called (hi.called_of_pop hp)
      have hb : (Definition.type shape).isBuiltin = false := hb
      have hlookup : ∀ context, table.lookup name context = .ok (.type shape) := by
        intro context
        rw [Table.lookup, hg]
      have hlookup' : ∀ context, other.lookup name context = .ok (.type shape) := by
        intro context
        rw [Table.lookup, h.get? hg]
      have hmake : (run.withWork .privateCopy rest).make other .privateCopy name =
          (run.withWork .privateCopy rest).make table .privateCopy name :=
        makeCopy_within h hv hv' (Table.mem_names_of_get? hg) _ _
      simp only [hp, hlookup, hlookup', lifted, ok_bind, hb, Bool.false_eq_true, if_false,
        hmake] at hd hd'
      split at hd
      · exact absurd hd throw_ne_ok
      split at hd'
      · exact absurd hd' throw_ne_ok
      obtain ⟨next, hm, hd⟩ := bind_eq_ok_iff.mp hd
      rw [hm, ok_bind] at hd'
      exact ih (hi.turn (.made hp hg hb hm)) hd hd'

end Sound

end Run

namespace Table

variable {table other : Table} {language : Code.Language}

theorem ZerosClosed.zeroBody?_eq_some_iff {synthesis : Synthesis} (h : table.ZerosClosed synthesis)
    {type : String} {body : ZeroBody} :
    synthesis.zeroBody? type = some body ↔ table.zeroBody type = .ok (some body) := by
  refine ⟨h.bodies type body, fun hb => ?_⟩
  have hsome : (synthesis.zeroBody? type).isSome := by
    rw [h.covers, hasPredicate_iff hb]
    rfl
  obtain ⟨found, hfound⟩ := Option.isSome_iff_exists.mp hsome
  have heq := h.bodies type found hfound
  rw [hb] at heq
  cases heq
  exact hfound

namespace Within

variable {config : Config} {roots : List String} {synthesis found : Synthesis}
  (h : table.Within other) (hv : table.validate language = .ok ())
  (hv' : other.validate language = .ok ())
  (hs : table.synthesize language config roots = .ok synthesis)
  (hs' : other.synthesize language config roots = .ok found)
include h hv hv' hs hs'

/-- Runs for types of the smaller table make the same copies and call the same clone operations. -/
theorem copies_eq (hroots : ∀ root ∈ roots, root ∈ table.names) :
    found.copyMethods = synthesis.copyMethods ∧ found.copies = synthesis.copies ∧
      found.capabilities = synthesis.capabilities := by
  obtain ⟨requested, copied, hq, hc, hmethods, hcopies, hcaps⟩ := Run.copyPhases_of_synthesize hs
  obtain ⟨requested', copied', hq', hc', hmethods', hcopies', hcaps'⟩ :=
    Run.copyPhases_of_synthesize hs'
  obtain rfl : requested' = requested := by
    rw [foldlM_congr_of_mem fun root hr run =>
      Run.addRoot_within h hv hv' (hroots root (mem_ascending.mp hr)) run, hq] at hq'
    exact (Except.ok.inj hq').symm
  have hmade := (Run.copiesMade_of_roots hq).2
  -- the larger table leaves room for more turns, which are not taken
  obtain ⟨more, hmore⟩ := Nat.le.dest h.size_le
  have hlong : Run.drain table .privateCopy (config.budget table.size) (table.size + 1 + more) 0
      requested' = .ok copied :=
    (Run.drain_add (fun taken run hi => hi.nodup_taken)
      (fun taken run name next hi ht => hi.turn ht) hmade (by simp) (by simp) more).trans hc
  rw [Nat.add_right_comm, hmore] at hlong
  obtain rfl := Run.drain_within h hv hv' hmade hlong hc'
  exact ⟨hmethods'.trans hmethods.symm, hcopies'.trans hcopies.symm, hcaps'.trans hcaps.symm⟩

theorem zeroBody?_eq {name : String} (hn : name ∈ table.names) :
    found.zeroBody? name = synthesis.zeroBody? name := by
  refine Option.ext fun body => ?_
  rw [(zerosClosed_of_synthesize hs).zeroBody?_eq_some_iff,
    (zerosClosed_of_synthesize hs').zeroBody?_eq_some_iff, h.zeroBody_eq hv hv' hn]

end Within

end Table

end CopySynth
