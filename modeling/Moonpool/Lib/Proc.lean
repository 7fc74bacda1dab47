import Mathlib.Algebra.Order.Ring.Nat

/-!
Owns procedures over a state that may be cut at any step, and the logic for them.

A `Proc` runs to its end and returns every state it passed through on the way
(`seen`).  A crash may catch it in any of those states, so a specification has two
parts: what holds in every state seen, and what holds of the result and the last
state.  `Meets` is that pair as a weakest precondition; the rules below give it for
each way of building a procedure, and `Meets.mono` weakens both parts.
-/

namespace Moonpool.Lib

universe u

section

variable {ε ε' α : Type u} {result : Except ε α} {rename : ε → ε'}

theorem mapError_ok {value : α}
    (done : result.mapError rename = .ok value) : result = .ok value := by
  cases result with
  | ok found => cases done; rfl
  | error error => cases done

theorem mapError_error {error' : ε'}
    (done : result.mapError rename = .error error') :
    ∃ error, result = .error error ∧ error' = rename error := by
  cases result with
  | ok found => cases done
  | error error => exact ⟨error, rfl, by cases done; rfl⟩

end

theorem ok_of_join {ε α : Type u} {result : Except ε (Option α)} {value : α}
    (found : result.toOption.join = some value) : result = .ok (some value) := by
  cases result with
  | error error => cases found
  | ok answer => exact congrArg Except.ok found

/-- How a procedure ran: the states it passed through, the last one and what it returned. -/
structure Ran (σ ε α : Type u) where
  seen : List σ
  last : σ
  result : Except ε α

/-- The run was cut in `state`: it passed through it, or failed there. -/
def Ran.CutAt {σ ε α : Type u} (ran : Ran σ ε α) (state : σ) : Prop :=
  state ∈ ran.seen ∨ (state = ran.last ∧ ∃ error, ran.result = .error error)

/-- A procedure over states `σ` that fails with `ε` or returns an `α`. -/
def Proc (σ ε α : Type u) : Type u :=
  σ → Ran σ ε α

namespace Proc

variable {σ ε ε' α β : Type u}

def ret (value : α) : Proc σ ε α :=
  fun state => ⟨[], state, .ok value⟩

def fail (error : ε) : Proc σ ε α :=
  fun state => ⟨[], state, .error error⟩

/-- Run `first`, then what it returned decides the rest; a failure ends the run. -/
def andThen (first : Proc σ ε α) (next : α → Proc σ ε β) : Proc σ ε β := fun state =>
  let ran := first state
  match ran.result with
  | .ok value =>
    let rest := next value ran.last
    ⟨ran.seen ++ rest.seen, rest.last, rest.result⟩
  | .error error => ⟨ran.seen, ran.last, .error error⟩

instance : Monad (Proc σ ε) where
  pure := ret
  bind := andThen

variable {first : Proc σ ε α} {next : α → Proc σ ε β}

theorem bind_of_ok {state : σ} {value : α} (shape : (first state).result = .ok value) :
    (first >>= next) state =
      ⟨(first state).seen ++ (next value (first state).last).seen,
        (next value (first state).last).last, (next value (first state).last).result⟩ := by
  change andThen first next state = _
  simp only [andThen, shape]

theorem bind_of_error {state : σ} {error : ε} (shape : (first state).result = .error error) :
    (first >>= next) state = ⟨(first state).seen, (first state).last, .error error⟩ := by
  change andThen first next state = _
  simp only [andThen, shape]

theorem ok_of_bind {state : σ} {value : β} (done : ((first >>= next) state).result = .ok value) :
    ∃ middle, (first state).result = .ok middle ∧
      (next middle (first state).last).result = .ok value := by
  cases shape : (first state).result with
  | ok middle => exact ⟨middle, rfl, by rwa [bind_of_ok shape] at done⟩
  | error error =>
    rw [bind_of_error shape] at done
    cases done

def mapError (rename : ε → ε') (body : Proc σ ε α) : Proc σ ε' α := fun state =>
  let ran := body state
  ⟨ran.seen, ran.last, ran.result.mapError rename⟩

def attempt (body : Proc σ ε α) : Proc σ ε' (Except ε α) := fun state =>
  let ran := body state
  ⟨ran.seen, ran.last, .ok ran.result⟩

def lift (result : Except ε α) : Proc σ ε α :=
  fun state => ⟨[], state, result⟩

def when (condition : Bool) (body : Proc σ ε PUnit) : Proc σ ε PUnit :=
  if condition then body else pure ⟨⟩

/-- Every state `body` passes through satisfies `during`, and its end `after`. -/
def Meets (body : Proc σ ε α) (state : σ) (during : σ → Prop)
    (after : Except ε α → σ → Prop) : Prop :=
  (∀ passed ∈ (body state).seen, during passed) ∧ after (body state).result (body state).last

section Rules

variable {state : σ} {during during' : σ → Prop}

variable {body : Proc σ ε α} {after : Except ε α → σ → Prop}

section

variable {after' : Except ε α → σ → Prop} (meets : Meets body state during after)

include meets

theorem Meets.mono (during_le : ∀ passed, during passed → during' passed)
    (after_le : ∀ result last, after result last → after' result last) :
    Meets body state during' after' :=
  ⟨fun passed member => during_le passed (meets.1 passed member), after_le _ _ meets.2⟩

theorem Meets.post (after_le : ∀ result last, after result last → after' result last) :
    Meets body state during after' :=
  meets.mono (fun _ holds => holds) after_le

end

theorem meets_true : Meets body state (fun _ => True) (fun _ _ => True) :=
  ⟨fun _ _ => trivial, trivial⟩

theorem meets_pure {value : α} (holds : after (.ok value) state) :
    Meets (pure value : Proc σ ε α) state during after :=
  ⟨nofun, holds⟩

theorem meets_fail {error : ε} (holds : after (.error error) state) :
    Meets (fail error : Proc σ ε α) state during after :=
  ⟨nofun, holds⟩

theorem meets_lift {result : Except ε α} (holds : after result state) :
    Meets (lift result : Proc σ ε α) state during after :=
  ⟨nofun, holds⟩

theorem meets_bind {first : Proc σ ε α} {next : α → Proc σ ε β} {middle : Except ε α → σ → Prop}
    {after : Except ε β → σ → Prop} (meets : Meets first state during middle)
    (continues : ∀ value last, middle (.ok value) last → Meets (next value) last during after)
    (fails : ∀ error last, middle (.error error) last → after (.error error) last) :
    Meets (first >>= next) state during after := by
  obtain ⟨seen, rest⟩ := meets
  cases shape : (first state).result with
  | error error =>
    rw [shape] at rest
    unfold Meets
    rw [bind_of_error shape]
    exact ⟨seen, fails _ _ rest⟩
  | ok value =>
    rw [shape] at rest
    obtain ⟨restSeen, final⟩ := continues _ _ rest
    unfold Meets
    rw [bind_of_ok shape]
    refine ⟨fun passed member => ?_, final⟩
    rcases List.mem_append.mp member with early | late
    · exact seen passed early
    · exact restSeen passed late

theorem meets_when {condition : Bool} {body : Proc σ ε PUnit} {after : Except ε PUnit → σ → Prop}
    (taken : condition = true → Meets body state during after)
    (skipped : condition = false → after (.ok ⟨⟩) state) :
    Meets (when condition body) state during after := by
  cases condition with
  | true => exact taken rfl
  | false => exact meets_pure (skipped rfl)

theorem meets_mapError {rename : ε → ε'} {after : Except ε' α → σ → Prop}
    (meets : Meets body state during fun result last => after (result.mapError rename) last) :
    Meets (mapError rename body) state during after :=
  meets

theorem meets_attempt {after : Except ε' (Except ε α) → σ → Prop}
    (meets : Meets body state during fun result last => after (.ok result) last) :
    Meets (attempt body) state during after :=
  meets

end Rules

end Proc

end Moonpool.Lib
