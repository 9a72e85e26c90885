/-!
# Decimal digits

The digits of a natural number, the number of a list of digits, and the
characters that write them.
-/

namespace KeyedRelations

/-- A decimal digit. -/
abbrev Digit := Fin 10

namespace Digit

/-- The digit `0`. -/
def zero : Digit := 0

/-- The character that writes a digit. -/
def char (d : Digit) : Char := Char.ofNat ('0'.toNat + d.val)

/-- The digit that a character writes. -/
def ofChar? (c : Char) : Option Digit :=
  if h : '0'.toNat ≤ c.toNat ∧ c.toNat ≤ '9'.toNat then
    some ⟨c.toNat - '0'.toNat, by
      have h1 := h.1
      have h2 := h.2
      simp at h1 h2 ⊢
      omega⟩
  else none

/-- The digits of a number, without leading zeros; those of zero are one zero. -/
def ofNat (n : Nat) : List Digit :=
  if h : n < 10 then [⟨n, h⟩]
  else ofNat (n / 10) ++ [⟨n % 10, Nat.mod_lt n (by decide)⟩]

/-- The number that digits write, of which `n` are the digits before them. -/
def appendTo (n : Nat) (ds : List Digit) : Nat := ds.foldl (fun n d => 10 * n + d.val) n

/-- The number that digits write. -/
def toNat (ds : List Digit) : Nat := appendTo 0 ds

/-- The digits at the start of a text, and what follows them. -/
def span : List Char → List Digit × List Char
  | [] => ([], [])
  | c :: rest =>
    match ofChar? c with
    | some d => (d :: (span rest).1, (span rest).2)
    | none => ([], c :: rest)

/-- The text of digits. -/
def chars (ds : List Digit) : List Char := ds.map char

end Digit

end KeyedRelations
