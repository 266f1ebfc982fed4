import QuotedLisp.Eval.Closure
import QuotedLisp.Proofs.Results
import QuotedLisp.Proofs.Scope.Entries

/-!
# Binding arguments

What a closure's arguments and formals become when arguments are bound in order. The formals that
are left waiting are a final part of those that were given, and the part still has its variadic
marker, if any, in place (`bindInOrder_well_placed`), though never as its first formal
(`bindInOrder_waits`); so no marker is ever found malformed (`bindInOrder_not_malformed`). The frame
holds what was bound before, the arguments, and at most one list of arguments
(`bindInOrder_forall`). To bind arguments in two steps is to bind them in one
(`bindArguments_append`), and what becomes of all of them follows from how many there are
(`bindArguments_few`, `bindArguments_exact`, `bindArguments_many`, `bindArguments_rest`).
-/

namespace QuotedLisp

namespace Closure

/-- Some formals wait for an argument, the first of them for one that it takes alone. -/
def Waits (formals : List Name) : Prop :=
  ∃ formal later, formals = formal :: later ∧ formal ≠ variadicMarker

/-- Without a formal that is no variadic marker the others are as well placed. -/
theorem well_placed_tail {formal : Name} {formals : List Name} (hne : formal ≠ variadicMarker)
    (h : wellPlaced (formal :: formals) = true) : wellPlaced formals = true := by
  have hcount : (formal :: formals).count variadicMarker = formals.count variadicMarker :=
    List.count_cons_of_ne hne
  simp only [wellPlaced, hcount, Bool.or_eq_true, Bool.and_eq_true, beq_iff_eq] at h ⊢
  rcases h with h | ⟨h, hplace⟩
  · exact .inl h
  · refine .inr ⟨h, ?_⟩
    -- The last but one of all formals is one of the others, for it is the marker.
    rw [List.reverse_cons, List.getElem?_append] at hplace
    split at hplace
    · exact hplace
    · have hsingle := List.getElem?_eq_some_iff.mp hplace
      obtain ⟨hlt, hget⟩ := hsingle
      simp only [List.length_singleton, List.length_reverse] at hlt
      simp only [List.getElem_singleton] at hget
      exact absurd hget hne

/-- The formals that wait for an argument are well placed if all formals were. -/
theorem bindInOrder_well_placed {expected given : Nat} {frame after : Bindings}
    {formals waiting : List Name} {args : List Value}
    (h : bindInOrder expected given frame formals args = .ok (after, waiting))
    (hformals : wellPlaced formals = true) : wellPlaced waiting = true := by
  fun_induction bindInOrder expected given frame formals args with
  | case1 =>
      cases h
      exact hformals
  | case2 => cases h
  | case3 =>
      obtain ⟨name, -, heq⟩ := except_bind_eq_ok.mp h
      cases heq
      rfl
  | case4 =>
      cases h
      exact hformals
  | case5 frame formal formals hmarker arg rest ih => exact ih h (well_placed_tail hmarker hformals)

/-- A well-placed marker is followed by one name. -/
theorem well_placed_marker {formals : List Name}
    (h : wellPlaced (variadicMarker :: formals) = true) :
    ∃ name, formals = [name] ∧ name ≠ variadicMarker := by
  simp only [wellPlaced, List.count_cons_self, Bool.or_eq_true, Bool.and_eq_true, beq_iff_eq,
    Nat.succ_ne_zero, Nat.add_eq_right, false_or] at h
  obtain ⟨hcount, hplace⟩ := h
  have hnone : variadicMarker ∉ formals := List.count_eq_zero.mp hcount
  match formals, hnone, hplace with
  | [name], hnone, _ =>
      exact ⟨name, rfl, fun hname => hnone (hname ▸ List.mem_cons_self)⟩
  | first :: second :: rest, hnone, hplace =>
      -- The last but one of all formals would be one of those after the marker.
      rw [List.reverse_cons, List.getElem?_append_left (by simp)] at hplace
      exact absurd (List.mem_reverse.mp (List.mem_of_getElem? hplace)) hnone

/-- Well-placed formals are names, and after the marker one more if there is a marker. -/
theorem well_placed_eq {formals : List Name} (h : wellPlaced formals = true)
    (hmarker : variadicMarker ∈ formals) :
    ∃ names rest, formals = names ++ [variadicMarker, rest] ∧ rest ≠ variadicMarker := by
  induction formals with
  | nil => cases hmarker
  | cons formal formals ih =>
      by_cases hformal : formal = variadicMarker
      · subst hformal
        obtain ⟨rest, rfl, hrest⟩ := well_placed_marker h
        exact ⟨[], rest, rfl, hrest⟩
      · have hmem := (List.mem_cons.mp hmarker).resolve_left (Ne.symm hformal)
        obtain ⟨names, rest, rfl, hrest⟩ := ih (well_placed_tail hformal h) hmem
        exact ⟨formal :: names, rest, rfl, hrest⟩

/-- If formals are left, they wait. -/
theorem bindInOrder_waits {expected given : Nat} {frame after : Bindings}
    {formals waiting : List Name} {args : List Value}
    (h : bindInOrder expected given frame formals args = .ok (after, waiting))
    (hwaiting : waiting ≠ []) : Waits waiting := by
  fun_induction bindInOrder expected given frame formals args with
  | case1 =>
      cases h
      exact absurd rfl hwaiting
  | case2 => cases h
  | case3 =>
      obtain ⟨name, -, heq⟩ := except_bind_eq_ok.mp h
      cases heq
      exact absurd rfl hwaiting
  | case4 frame formal formals hmarker =>
      cases h
      exact ⟨formal, formals, rfl, hmarker⟩
  | case5 frame formal formals hmarker arg rest ih => exact ih h

/-- Where something was bound before, or there are arguments to bind, something is bound. -/
theorem bindInOrder_ne_nil {expected given : Nat} {frame after : Bindings}
    {formals waiting : List Name} {args : List Value}
    (h : bindInOrder expected given frame formals args = .ok (after, waiting))
    (hsome : frame ≠ [] ∨ args ≠ []) : after ≠ [] := by
  fun_induction bindInOrder expected given frame formals args with
  | case1 | case4 =>
      cases h
      exact hsome.resolve_right (· rfl)
  | case2 => cases h
  | case3 frame =>
      obtain ⟨name, -, heq⟩ := except_bind_eq_ok.mp h
      cases heq
      exact Bindings.set_ne_nil frame name _
  | case5 frame formal formals hmarker arg rest ih =>
      exact ih h (.inl (Bindings.set_ne_nil frame formal arg))

/-- Arguments can always be bound to well-placed formals, unless there are too many. -/
theorem bindInOrder_not_malformed {expected given : Nat} {frame : Bindings}
    {formals : List Name} (args : List Value) (h : wellPlaced formals = true) :
    bindInOrder expected given frame formals args ≠ .error .malformedVariadic := by
  fun_induction bindInOrder expected given frame formals args with
  | case1 | case2 | case4 => nofun
  | case3 =>
      obtain ⟨name, rfl, hname⟩ := well_placed_marker h
      rw [restName, if_neg hname]
      nofun
  | case5 frame formal formals hmarker arg rest ih => exact ih (well_placed_tail hmarker h)

/-- What may follow a marker is one name. -/
theorem restName_eq_ok {formals : List Name} {name : Name} :
    restName formals = .ok name ↔ formals = [name] ∧ name ≠ variadicMarker := by
  unfold restName
  split
  · split
    · rename_i hmarker
      refine ⟨nofun, ?_⟩
      rintro ⟨⟨⟩, hname⟩
      exact absurd hmarker hname
    · rename_i hmarker
      simp only [Except.ok.injEq, List.cons.injEq, and_true]
      exact ⟨fun h => ⟨h, h ▸ hmarker⟩, And.left⟩
  · rename_i hmany
    simp only [reduceCtorEq, false_iff, not_and]
    intro heq
    exact absurd heq (hmany name)

/-- The formals that wait for an argument are the last of those that were given. -/
theorem bindInOrder_suffix {expected given : Nat} {frame after : Bindings}
    {formals waiting : List Name} {args : List Value}
    (h : bindInOrder expected given frame formals args = .ok (after, waiting)) :
    waiting <:+ formals := by
  fun_induction bindInOrder expected given frame formals args with
  | case1 | case4 =>
      cases h
      exact List.suffix_refl _
  | case2 => cases h
  | case3 =>
      obtain ⟨name, -, heq⟩ := except_bind_eq_ok.mp h
      cases heq
      exact List.nil_suffix
  | case5 frame formal formals hmarker arg rest ih => exact (ih h).trans (List.suffix_cons _ _)

/-- What holds of the entries bound before, and of a formal with an argument or with a list of
arguments, holds of all entries that are bound in the end. -/
theorem bindInOrder_forall {P : Name × Value → Prop} {expected given : Nat}
    {frame after : Bindings} {formals waiting : List Name} {args : List Value}
    (h : bindInOrder expected given frame formals args = .ok (after, waiting))
    (hframe : ∀ entry ∈ frame, P entry)
    (hargs : ∀ formal ∈ formals, ∀ arg ∈ args, P (formal, arg))
    (hquoted : ∀ formal ∈ formals, ∀ list, list ⊆ args → P (formal, .quoted list)) :
    ∀ entry ∈ after, P entry := by
  fun_induction bindInOrder expected given frame formals args with
  | case1 | case4 =>
      cases h
      exact hframe
  | case2 => cases h
  | case3 frame formals args =>
      obtain ⟨name, hname, heq⟩ := except_bind_eq_ok.mp h
      obtain ⟨rfl, -⟩ := restName_eq_ok.mp hname
      cases heq
      exact Bindings.forall_set hframe (hquoted name (by simp) args (List.Subset.refl args))
  | case5 frame formal formals hmarker arg rest ih =>
      refine ih h (Bindings.forall_set hframe (hargs formal (by simp) arg (by simp))) ?_ ?_
      · intro name hname other hother
        exact hargs name (List.mem_cons_of_mem _ hname) other (List.mem_cons_of_mem _ hother)
      · intro name hname list hlist
        exact hquoted name (List.mem_cons_of_mem _ hname) list fun _ h =>
          List.mem_cons_of_mem _ (hlist h)

section

variable {expected given : Nat} {frame : Bindings} {formal : Name} {formals : List Name}

/-- The marker takes what is left of the arguments. -/
theorem bindInOrder_marker (args : List Value) :
    bindInOrder expected given frame (variadicMarker :: formals) args =
      (restName formals).map fun name => (frame.set name (.quoted args), []) := by
  rw [bindInOrder.eq_def]
  simp only [↓reduceIte]
  cases restName formals <;> rfl

/-- Without arguments a plain formal waits, and so do all after it. -/
theorem bindInOrder_waiting (h : formal ≠ variadicMarker) :
    bindInOrder expected given frame (formal :: formals) [] = .ok (frame, formal :: formals) := by
  rw [bindInOrder.eq_def]
  simp only [if_neg h]

/-- A plain formal takes one argument. -/
theorem bindInOrder_plain (h : formal ≠ variadicMarker) (arg : Value) (args : List Value) :
    bindInOrder expected given frame (formal :: formals) (arg :: args) =
      bindInOrder expected given (frame.set formal arg) formals args := by
  rw [bindInOrder.eq_def]
  simp only [if_neg h]

/-- Arguments that are bound to plain names are bound one after the other; then the binding goes on
with the others. -/
theorem bindInOrder_append {names later : List Name} {first : List Value}
    (hnames : variadicMarker ∉ names) (hlength : first.length ≤ names.length)
    (frame : Bindings) (second : List Value) :
    bindInOrder expected given frame (names ++ later) (first ++ second) =
      bindInOrder expected given (frame.setAll (names.zip first))
        (names.drop first.length ++ later) second := by
  induction first generalizing names frame with
  | nil => simp [Bindings.setAll]
  | cons arg first ih =>
      cases names with
      | nil => cases hlength
      | cons name names =>
          simp only [List.mem_cons, not_or] at hnames
          rw [List.cons_append, List.cons_append, bindInOrder_plain (Ne.symm hnames.1)]
          exact ih hnames.2 (Nat.le_of_succ_le_succ hlength) _

/-- The counts are for the message only: where there cannot be too many arguments they do not
matter. -/
theorem bindInOrder_counts {args : List Value}
    (h : variadicMarker ∈ formals ∨ args.length ≤ formals.length) (expected' given' : Nat) :
    bindInOrder expected given frame formals args =
      bindInOrder expected' given' frame formals args := by
  induction formals generalizing args frame with
  | nil =>
      obtain rfl : args = [] := by simpa using h
      rfl
  | cons formal formals ih =>
      by_cases hmarker : formal = variadicMarker
      · subst hmarker
        rw [bindInOrder_marker, bindInOrder_marker]
      · cases args with
        | nil => rw [bindInOrder_waiting hmarker, bindInOrder_waiting hmarker]
        | cons arg args =>
            rw [bindInOrder_plain hmarker, bindInOrder_plain hmarker]
            refine ih (h.imp ?_ Nat.le_of_succ_le_succ)
            exact fun hmem => (List.mem_cons.mp hmem).resolve_left (Ne.symm hmarker)

/-- Formals as closures have them: names in order, and after the marker the one that takes the
arguments that are left, if there is such a one. -/
def formalsOf (names : List Name) : Option Name → List Name
  | none => names
  | some rest => names ++ [variadicMarker, rest]

/-- Names come before what takes the other arguments. -/
theorem formalsOf_eq (names : List Name) (rest : Option Name) :
    formalsOf names rest = names ++ formalsOf [] rest := by
  cases rest with
  | none => exact (List.append_nil names).symm
  | some name => rfl

variable {names : List Name} {rest : Option Name} {bound : Bindings}
  {first second : List Value}

/-- If not all names are passed over, the next one is no marker. -/
theorem formalsOf_drop (hnames : variadicMarker ∉ names) {count : Nat}
    (hcount : count < names.length) :
    ∃ name later, formalsOf (names.drop count) rest = name :: later ∧ name ≠ variadicMarker := by
  obtain ⟨name, later, hdrop⟩ : ∃ name later, names.drop count = name :: later :=
    List.exists_cons_of_length_pos (by rw [List.length_drop]; omega)
  refine ⟨name, later ++ formalsOf [] rest, ?_, ?_⟩
  · rw [formalsOf_eq, hdrop, List.cons_append]
  · rintro rfl
    exact hnames (List.mem_of_mem_drop (hdrop ▸ List.mem_cons_self))

/-- As long as there are fewer arguments than names, each is bound to its name, and the other
formals wait. -/
theorem bindArguments_few (hnames : variadicMarker ∉ names)
    (hlength : first.length < names.length) :
    bindArguments bound (formalsOf names rest) first =
      .ok (bound.setAll (names.zip first), formalsOf (names.drop first.length) rest) := by
  have happend := @bindInOrder_append (formalsOf names rest).length first.length _
    (formalsOf [] rest) _ hnames (Nat.le_of_lt hlength) bound []
  rw [List.append_nil, ← formalsOf_eq, ← formalsOf_eq] at happend
  obtain ⟨name, later, hwaiting, hname⟩ := @formalsOf_drop _ rest hnames _ hlength
  rw [bindArguments, happend, hwaiting]
  exact bindInOrder_waiting hname

/-- To bind arguments in two steps is to bind them in one, unless there are too many. -/
theorem bindArguments_append (hnames : variadicMarker ∉ names)
    (hfirst : first.length ≤ names.length)
    (hcount : rest = none → first.length + second.length ≤ names.length) :
    bindArguments bound (formalsOf names rest) (first ++ second) =
      bindArguments (bound.setAll (names.zip first)) (formalsOf (names.drop first.length) rest)
        second := by
  unfold bindArguments
  rw [formalsOf_eq names, bindInOrder_append hnames hfirst, formalsOf_eq (names.drop _)]
  apply bindInOrder_counts
  cases rest with
  | none =>
      have := hcount rfl
      right
      simp only [formalsOf, List.append_nil, List.length_drop]
      omega
  | some name => exact .inl (List.mem_append_right _ List.mem_cons_self)

variable {args : List Value}

/-- With an argument for each name the names are bound in order, and the arguments that are left go
to what follows the names. -/
theorem bindArguments_enough (hnames : variadicMarker ∉ names)
    (hlength : names.length ≤ args.length) :
    bindArguments bound (formalsOf names rest) args =
      bindInOrder (formalsOf names rest).length args.length (bound.setAll (names.zip args))
        (formalsOf [] rest) (args.drop names.length) := by
  have htake : (args.take names.length).length = names.length :=
    List.length_take_of_le hlength
  have hzip : names.zip args = names.zip (args.take names.length) := by
    rw [List.zip_eq_zip_take_min, Nat.min_eq_left hlength, List.take_length]
  have happend := @bindInOrder_append (formalsOf names rest).length args.length names
    (formalsOf [] rest) (args.take names.length) hnames (Nat.le_of_eq htake) bound
    (args.drop names.length)
  rw [List.take_append_drop, ← formalsOf_eq, htake, List.drop_length, List.nil_append] at happend
  rw [bindArguments, happend, hzip]

/-- As many arguments as names, and no variadic marker: nothing waits. -/
theorem bindArguments_exact (hnames : variadicMarker ∉ names)
    (hlength : args.length = names.length) :
    bindArguments bound (formalsOf names none) args = .ok (bound.setAll (names.zip args), []) := by
  rw [bindArguments_enough hnames (Nat.le_of_eq hlength.symm), ← hlength, List.drop_length]
  rfl

/-- Without a variadic marker there must not be more arguments than names. -/
theorem bindArguments_many (hnames : variadicMarker ∉ names)
    (hlength : names.length < args.length) :
    bindArguments bound (formalsOf names none) args =
      .error (.tooManyArguments names.length args.length) := by
  rw [bindArguments_enough hnames (Nat.le_of_lt hlength)]
  obtain ⟨extra, more, hdrop⟩ : ∃ extra more, args.drop names.length = extra :: more :=
    List.exists_cons_of_length_pos (by rw [List.length_drop]; omega)
  rw [hdrop]
  rfl

/-- The name after the marker takes the arguments that are left as a quoted list. -/
theorem bindArguments_rest (hnames : variadicMarker ∉ names)
    (hlength : names.length ≤ args.length) (name : Name) :
    bindArguments bound (formalsOf names (some name)) args =
      if name = variadicMarker then .error .malformedVariadic
      else .ok ((bound.setAll (names.zip args)).set name (.quoted (args.drop names.length)), []) := by
  rw [bindArguments_enough hnames hlength]
  show bindInOrder _ _ _ (variadicMarker :: [name]) _ = _
  rw [bindInOrder_marker, restName]
  split <;> rfl

end

end Closure

end QuotedLisp
