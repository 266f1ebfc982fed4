import QuotedLisp.Eval.Run

/-!
# Whose errors they are

A builtin function that fails by a check of its own raises an error of its own: most errors name the
function, and each of the others is raised by one function only. `Builtin.Blames` says so of a
check, and is carried along checks made in turn; there is a lemma for each function.
-/

namespace QuotedLisp

/-- The errors that a builtin function raises itself. -/
def RuntimeError.IsOf (b : Builtin) : RuntimeError → Prop
  | .typeMismatch function _ _ | .arityMismatch function _ _ | .emptyInput function _
  | .divisionByZero function | .outOfRange function | .bindingCountMismatch function _ _
  | .outputFailure function _ => function = b.name
  | .malformedVariadic => b = .lambda
  | .incomparable _ => b = .equal
  | .moduleFailure .. => b = .load
  | .user _ => b = .raise
  | .unknownIdentifier _ | .notAFunction _ | .tooManyArguments .. => False

namespace Builtin

variable {α β : Type} {b : Builtin}

/-- If the check fails, it is with an error of the function. -/
def Blames (b : Builtin) (result : Except RuntimeError α) : Prop :=
  ∀ e, result = .error e → e.IsOf b

/-- A result is no failure. -/
theorem blames_ok (a : α) : b.Blames (.ok a) := nofun

/-- An error of the function. -/
theorem blames_error {e : RuntimeError} (h : e.IsOf b) :
    b.Blames (.error e : Except RuntimeError α) := by
  rintro _ ⟨⟩
  exact h

/-- The wrong number of arguments. -/
theorem blames_arity (b : Builtin) (args : List Value) :
    b.Blames (.error (b.arityError args) : Except RuntimeError α) :=
  blames_error rfl

/-- Two checks in turn. -/
theorem Blames.bind {x : Except RuntimeError α} {f : α → Except RuntimeError β}
    (hx : b.Blames x) (hf : ∀ a, b.Blames (f a)) : b.Blames (x >>= f) := by
  cases x with
  | error e => exact blames_error (hx e rfl)
  | ok a => exact hf a

/-- A check of each member of a list. -/
theorem blames_mapM {check : α → Except RuntimeError β} (h : ∀ a, b.Blames (check a))
    (items : List α) : b.Blames (items.mapM check) := by
  induction items with
  | nil => exact blames_ok []
  | cons item rest ih =>
      rw [List.mapM_cons]
      exact (h item).bind fun answer => ih.bind fun answers => blames_ok (answer :: answers)

/-- A value that is expected to be a number. -/
theorem blames_number (b : Builtin) (v : Value) : b.Blames (v.expectNumber b.name) := by
  cases v with
  | number x => exact blames_ok x
  | string | identifier | list | builtin | closure | error => exact blames_error rfl

/-- A value that is expected to be a string. -/
theorem blames_string (b : Builtin) (v : Value) : b.Blames (v.expectString b.name) := by
  cases v with
  | string text => exact blames_ok text
  | number | identifier | list | builtin | closure | error => exact blames_error rfl

/-- A value that is expected to be a quoted list. -/
theorem blames_quoted (b : Builtin) (v : Value) : b.Blames (v.expectQuoted b.name) := by
  cases v with
  | list bracket items =>
      cases bracket with
      | round => exact blames_error rfl
      | curly => exact blames_ok items
  | number | string | identifier | builtin | closure | error => exact blames_error rfl

/-- A value that is expected to be a quoted list of names. -/
theorem blames_identifiers (b : Builtin) (v : Value) : b.Blames (v.expectIdentifiers b.name) := by
  refine (blames_quoted b v).bind fun items => blames_mapM (fun item => ?_) items
  cases item with
  | identifier name => exact blames_ok name
  | number | string | list | builtin | closure | error => exact blames_error rfl

/-- Names and values that are paired up. -/
theorem pairs_blames (b : Builtin) (args : List Value) : b.Blames (b.pairs args) := by
  cases args with
  | nil => exact blames_arity b []
  | cons first values =>
      refine (blames_identifiers b first).bind fun names => ?_
      split
      · exact blames_ok _
      · exact blames_error rfl

/-- A division. -/
theorem guardedDivision_blames (b : Builtin) (operation : Binary64 → Binary64 → Binary64)
    (x y : Binary64) : b.Blames (guardedDivision b operation x y) := by
  unfold guardedDivision
  split
  · exact blames_error rfl
  · exact blames_ok _

/-- A fold on numbers, if its operation raises errors of the function. -/
theorem foldNumbers_blames {operation : Binary64 → Binary64 → Except RuntimeError Binary64}
    (h : ∀ x y, b.Blames (operation x y)) (args : List Value) :
    b.Blames (foldNumbers b operation args) := by
  have hstep (total : Binary64) (arg : Value) : b.Blames (foldStep b operation total arg) := by
    refine (blames_number b arg).bind fun x => (h total x).bind fun result => ?_
    split
    · exact blames_ok result
    · exact blames_error rfl
  have hfold (rest : List Value) (start : Binary64) :
      b.Blames (rest.foldlM (foldStep b operation) start) := by
    induction rest generalizing start with
    | nil => exact blames_ok start
    | cons arg rest ih =>
        rw [List.foldlM_cons]
        exact (hstep start arg).bind ih
  cases args with
  | nil => exact blames_arity b []
  | cons first rest =>
      exact (blames_number b first).bind fun start => (hfold rest start).bind fun _ => blames_ok _

/-- The difference. -/
theorem difference_blames (args : List Value) : Blames .subtract (difference args) := by
  unfold difference
  split
  · exact (blames_number .subtract _).bind fun _ => blames_ok _
  · exact foldNumbers_blames (fun _ _ => blames_ok _) _

/-- The remainder. -/
theorem remainder_blames (args : List Value) : Blames .modulo (remainder args) := by
  unfold remainder
  split
  · exact (blames_number .modulo _).bind fun _ => (blames_number .modulo _).bind fun _ =>
      (guardedDivision_blames .modulo _ _ _).bind fun _ => blames_ok _
  · exact blames_arity .modulo _

/-- A comparison. -/
theorem comparison_blames (b : Builtin) (relation : Binary64 → Binary64 → Bool)
    (args : List Value) : b.Blames (comparison b relation args) := by
  unfold comparison
  split
  · exact (blames_number b _).bind fun _ => (blames_number b _).bind fun _ => blames_ok _
  · exact blames_arity b _

mutual

/-- Two values that are compared. -/
theorem equal_blames (v other : Value) : Blames .equal (v.equal? other) := by
  cases v with
  | list bracket items =>
      cases other with
      | list bracket' items' =>
          unfold Value.equal?
          split
          · exact blames_ok false
          · exact equalItems_blames items items'
      | number | string | identifier | builtin | closure | error => exact blames_ok _
  | number | string | identifier | builtin | closure | error =>
      cases other <;> first | exact blames_ok _ | exact blames_error rfl

/-- Two lists that are compared item by item. -/
theorem equalItems_blames (items others : List Value) :
    Blames .equal (Value.equalItems? items others) := by
  cases items with
  | nil => cases others <;> exact blames_ok true
  | cons v items =>
      cases others with
      | nil => exact blames_ok true
      | cons other others =>
          have hfirst := equal_blames v other
          unfold Value.equalItems?
          split
          · exact equalItems_blames items others
          · exact hfirst

end

/-- A value that is compared with several others. -/
theorem allEqual_blames (v : Value) (others : List Value) : Blames .equal (allEqual v others) := by
  induction others with
  | nil => exact blames_ok true
  | cons other others ih =>
      have hfirst := equal_blames v other
      unfold allEqual
      split
      · exact ih
      · exact hfirst

/-- Equality. -/
theorem equality_blames (args : List Value) : Blames .equal (equality args) := by
  unfold equality
  split
  · exact (allEqual_blames _ _).bind fun _ => blames_ok _
  · exact blames_arity .equal _

/-- The first part of a list or of a string. -/
theorem first_blames (args : List Value) : Blames .head (first args) := by
  unfold first
  split
  · split
    · exact blames_error rfl
    · exact blames_ok _
  · refine (blames_quoted .head _).bind fun items => ?_
    cases items with
    | nil => exact blames_error rfl
    | cons item _ => exact blames_ok (Value.quoted [item])
  · exact blames_arity .head _

/-- What follows the first part of a list or of a string. -/
theorem afterFirst_blames (args : List Value) : Blames .tail (afterFirst args) := by
  unfold afterFirst
  split
  · split
    · exact blames_error rfl
    · exact blames_ok _
  · refine (blames_quoted .tail _).bind fun items => ?_
    cases items with
    | nil => exact blames_error rfl
    | cons _ rest => exact blames_ok (Value.quoted rest)
  · exact blames_arity .tail _

/-- Strings or lists one after the other. -/
theorem concatenation_blames (args : List Value) : Blames .join (concatenation args) := by
  unfold concatenation
  split
  · exact blames_arity .join []
  · exact (blames_mapM (blames_string .join) _).bind fun _ => blames_ok _
  · exact (blames_mapM (blames_quoted .join) _).bind fun _ => blames_ok _

/-- A failure that the program raises. -/
theorem failure_blames (args : List Value) : Blames .raise (failure args) := by
  unfold failure
  split
  · exact (blames_string .raise _).bind fun _ => blames_error rfl
  · exact blames_arity .raise _

/-- A closure that is made. -/
theorem make_blames (args : List Value) : Blames .lambda (Closure.make args) := by
  unfold Closure.make
  split
  · refine (blames_identifiers .lambda _).bind fun formals =>
      (blames_quoted .lambda _).bind fun body => ?_
    split
    · exact blames_ok _
    · exact blames_error rfl
  · exact blames_arity .lambda _

end Builtin

end QuotedLisp
