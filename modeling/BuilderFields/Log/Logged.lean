import BuilderFields.Log.Level

/-!
# Computations that log

A logged computation sends records on its way to an outcome, and what was sent stays sent when the outcome
is an error. `outcome` commutes with every operation below, so a statement about outcomes never has to
mention records.
-/

namespace BuilderFields

structure Logged (ε α : Type) where
  records : List LogRecord
  outcome : Except ε α

namespace Logged

variable {ε ε' α β : Type}

instance : Monad (Logged ε) where
  pure value := ⟨[], .ok value⟩
  bind x f :=
    match x.outcome with
    | .error error => ⟨x.records, .error error⟩
    | .ok value => ⟨x.records ++ (f value).records, (f value).outcome⟩

def fail (error : ε) : Logged ε α :=
  ⟨[], .error error⟩

def ofExcept (outcome : Except ε α) : Logged ε α :=
  ⟨[], outcome⟩

def send (record : LogRecord) : Logged ε Unit :=
  ⟨[record], .ok ()⟩

def mapError (f : ε → ε') (x : Logged ε α) : Logged ε' α :=
  ⟨x.records, x.outcome.mapError f⟩

@[simp]
theorem outcome_pure (value : α) : (pure value : Logged ε α).outcome = .ok value := rfl

@[simp]
theorem outcome_bind (x : Logged ε α) (f : α → Logged ε β) :
    (x >>= f).outcome = x.outcome.bind fun value => (f value).outcome := by
  rcases x with ⟨records, error | value⟩ <;> rfl

@[simp]
theorem outcome_fail (error : ε) : (fail error : Logged ε α).outcome = .error error := rfl

@[simp]
theorem outcome_ofExcept (outcome : Except ε α) : (ofExcept outcome).outcome = outcome := rfl

@[simp]
theorem outcome_send (record : LogRecord) : (send record : Logged ε Unit).outcome = .ok () := rfl

@[simp]
theorem outcome_mapError (f : ε → ε') (x : Logged ε α) :
    (x.mapError f).outcome = x.outcome.mapError f := rfl

end Logged

end BuilderFields
