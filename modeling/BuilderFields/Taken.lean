/-!
# Reading from the front of a list

Readers take a value from the front of a list of characters or tokens and hand back what is left. The
rest is never longer than the input, and the proof travels with it, so that a reader may call itself on
the rest of what another has read. Readings are put together by the operations below, each of which says
how much of the input is used up.
-/

namespace BuilderFields

structure Taken {τ : Type} (input : List τ) (α : Type) where
  value : α
  rest : List τ
  length_le : rest.length ≤ input.length

theorem length_dropWhile_le {τ : Type} (p : τ → Bool) (input : List τ) :
    (input.dropWhile p).length ≤ input.length :=
  (List.dropWhile_suffix p).length_le

namespace Taken

variable {τ α β : Type} {input : List τ}

def nothing (value : α) : Taken input α where
  value := value
  rest := input
  length_le := Nat.le_refl input.length

def first {item : τ} {rest : List τ} (value : α) : Taken (item :: rest) α where
  value := value
  rest := rest
  length_le := Nat.le_succ rest.length

def drop (count : Nat) (value : α) : Taken input α where
  value := value
  rest := input.drop count
  length_le := (List.drop_suffix count input).length_le

def skip (p : τ → Bool) (input : List τ) : Taken input Unit where
  value := ()
  rest := input.dropWhile p
  length_le := length_dropWhile_le p input

def map (f : α → β) (taken : Taken input α) : Taken input β where
  value := f taken.value
  rest := taken.rest
  length_le := taken.length_le

def behind {rest : List τ} (item : τ) (taken : Taken rest α) : Taken (item :: rest) α where
  value := taken.value
  rest := taken.rest
  length_le := Nat.le_succ_of_le taken.length_le

/-- The later of two readings, the one starting where the other ended. -/
def andThen (taken : Taken input α) (later : Taken taken.rest β) : Taken input β where
  value := later.value
  rest := later.rest
  length_le := Nat.le_trans later.length_le taken.length_le

@[simp]
theorem value_nothing (value : α) : (nothing value : Taken input α).value = value := rfl

@[simp]
theorem rest_nothing (value : α) : (nothing value : Taken input α).rest = input := rfl

@[simp]
theorem value_first {item : τ} {rest : List τ} (value : α) :
    (first value : Taken (item :: rest) α).value = value := rfl

@[simp]
theorem rest_first {item : τ} {rest : List τ} (value : α) :
    (first value : Taken (item :: rest) α).rest = rest := rfl

@[simp]
theorem value_map (f : α → β) (taken : Taken input α) : (taken.map f).value = f taken.value := rfl

@[simp]
theorem rest_map (f : α → β) (taken : Taken input α) : (taken.map f).rest = taken.rest := rfl

@[simp]
theorem value_behind {rest : List τ} (item : τ) (taken : Taken rest α) :
    (taken.behind item).value = taken.value := rfl

@[simp]
theorem rest_behind {rest : List τ} (item : τ) (taken : Taken rest α) :
    (taken.behind item).rest = taken.rest := rfl

@[simp]
theorem value_andThen (taken : Taken input α) (later : Taken taken.rest β) :
    (taken.andThen later).value = later.value := rfl

@[simp]
theorem rest_andThen (taken : Taken input α) (later : Taken taken.rest β) :
    (taken.andThen later).rest = later.rest := rfl

end Taken

end BuilderFields
