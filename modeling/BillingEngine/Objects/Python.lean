import BillingEngine.Library.Double

-- The exceptions that can escape from the code or from the database driver.
inductive PyError
  | keyError
  | indexError
  | attributeError
  | typeError
  | valueError
  | multipleResultsFound
  | integrityError
  | dataError
  | operationalError
  deriving DecidableEq, Repr

-- The JSON values that Stripe sends. The payloads read here carry integers only.
inductive Json
  | null
  | bool (b : Bool)
  | num (n : Int)
  | str (s : String)
  | arr (xs : List Json)
  | obj (fields : List (String × Json))

namespace Json

-- `dict(obj)`
def toDict : Json → Except PyError (List (String × Json))
  | obj d => .ok d
  | _     => .error .typeError

-- `j.get(key, default)`, which only dictionaries have.
def get (j : Json) (key : String) (default : Json) : Except PyError Json :=
  match j with
  | obj d => .ok <| d.lookup key |>.getD default
  | _     => .error .attributeError

-- `j[0]`
def first : Json → Except PyError Json
  | arr (x :: _) => .ok x
  | arr []       => .error .indexError
  | obj _        => .error .keyError
  | str s        => if s.isEmpty then .error .indexError else .ok <| .str <| s.take 1 |>.toString
  | _            => .error .typeError

theorem toDict_ok {j : Json} {d} : j.toDict = .ok d ↔ j = .obj d := by
  cases j <;> simp [toDict]

-- The value of a `VARCHAR` parameter of an SQL statement, where `none` is `NULL`. The driver
-- refuses to encode anything but strings and `NULL`.
def text : Json → Except PyError (Option String)
  | str s => .ok s
  | null  => .ok none
  | _     => .error .dataError

end Json

-- `result.scalar_one_or_none()`
def scalarOneOrNone : List ρ → Except PyError (Option ρ)
  | []  => .ok none
  | [x] => .ok x
  | _   => .error .multipleResultsFound

theorem scalarOneOrNone_mem {rows : List ρ} (h : scalarOneOrNone rows = .ok (some x)) :
    rows = [x] := by
  unfold scalarOneOrNone at h
  split at h <;> simp_all

theorem scalarOneOrNone_map {σ : Type} {rows : List ρ} {f : ρ → σ} :
    scalarOneOrNone (rows.map f) = Option.map f <$> scalarOneOrNone rows := by
  rcases rows with _ | ⟨_, _ | _⟩ <;> rfl

-- `delta.total_seconds()` for a time in microseconds: the true division of two integers yields the
-- number of double precision which is nearest to the quotient.
def totalSeconds (delta : Int) : ℚ :=
  Double.nearest (delta / 1000000)

-- CPython refuses to convert an integer of more than this number of digits to text.
def maxStrDigits : Nat :=
  4300

def Printable (n : Nat) : Prop :=
  (Nat.toDigits 10 n).length ≤ maxStrDigits

instance : DecidablePred Printable :=
  fun _ => inferInstanceAs <| Decidable (_ ≤ _)

theorem printable_iff {n : Nat} : Printable n ↔ n < 10 ^ maxStrDigits :=
  Nat.length_toDigits_le_iff (by decide) (by decide)

theorem Printable.of_le {m n : Nat} (h : m ≤ n) (hn : Printable n) : Printable m :=
  printable_iff.mpr <| lt_of_le_of_lt h <| printable_iff.mp hn

theorem printable_of_lt {n : Nat} (h : n < 2 ^ 63) : Printable n :=
  printable_iff.mpr <| calc n
    _ < 2 ^ 63            := h
    _ ≤ 10 ^ 63           := Nat.pow_le_pow_left (by decide) _
    _ ≤ 10 ^ maxStrDigits := Nat.pow_le_pow_right (by decide) (by decide)

section Except

variable {ε α β : Type} {x : Except ε α}

theorem Except.bind_eq_ok {f : α → Except ε β} {r : β} :
    (x >>= f) = .ok r ↔ ∃ a, x = .ok a ∧ f a = .ok r := by
  cases x <;> simp [bind, Except.bind]

theorem Except.map_eq_ok {f : α → β} {r : β} : f <$> x = .ok r ↔ ∃ a, x = .ok a ∧ f a = r := by
  cases x <;> simp [Functor.map, Except.map]

end Except
