/-!
Natural numbers as digits of any base, least significant digit first.

The plain definitions go digit by digit. Beside them stand ways that share the work
evenly, for numbers of very many digits: neighbours are taken together as digits of the
squared base, and numbers are cut in halves. Both give the same.
-/

namespace ByteStreams

namespace Digits

/-! ## From digits to a number -/

def value (base : Nat) : List Nat → Nat
  | [] => 0
  | digit :: rest => digit + base * value base rest

/-- Take neighbouring digits together, after those taken together before (last one
first). -/
def pairAfter (base : Nat) (found : List Nat) : List Nat → List Nat
  | low :: high :: rest => pairAfter base ((low + base * high) :: found) rest
  | [digit] => (digit :: found).reverse
  | [] => found.reverse

def pairs (base : Nat) (digits : List Nat) : List Nat := pairAfter base [] digits

theorem pairAfter_eq (base : Nat) : (found digits : List Nat) →
    pairAfter base found digits = found.reverse ++ pairs base digits
  | found, [] => by simp [pairs, pairAfter]
  | found, [digit] => by simp [pairs, pairAfter]
  | found, low :: high :: rest => by
      simp only [pairs, pairAfter]
      rw [pairAfter_eq base _ rest, pairAfter_eq base [low + base * high] rest]
      simp

@[simp] theorem pairs_cons_cons (base low high : Nat) (rest : List Nat) :
    pairs base (low :: high :: rest) = (low + base * high) :: pairs base rest :=
  pairAfter_eq base [low + base * high] rest

theorem length_pairs (base : Nat) : (digits : List Nat) →
    (pairs base digits).length = (digits.length + 1) / 2
  | [] => rfl
  | [_] => by simp [pairs, pairAfter]
  | _ :: _ :: rest => by
      have shorter := length_pairs base rest
      simp only [pairs_cons_cons, List.length_cons]
      omega

theorem value_pairs (base : Nat) : (digits : List Nat) →
    value (base * base) (pairs base digits) = value base digits
  | [] => rfl
  | [digit] => by simp [pairs, pairAfter, value]
  | low :: high :: rest => by
      simp only [pairs_cons_cons, value, value_pairs base rest, Nat.mul_add, Nat.mul_assoc,
        Nat.add_assoc]

def total (base : Nat) (digits : List Nat) : Nat :=
  match digits with
  | [] => 0
  | [digit] => digit
  | low :: high :: rest => total (base * base) (pairs base (low :: high :: rest))
termination_by digits.length
decreasing_by
  simp only [length_pairs, List.length_cons]
  omega

theorem total_eq_value (base : Nat) (digits : List Nat) :
    total base digits = value base digits := by
  fun_induction total base digits with
  | case1 => rfl
  | case2 => simp [value]
  | case3 base low high rest induction => rw [induction, value_pairs]

/-! ## From a number to digits -/

def ofNumber (base : Nat) : (width : Nat) → (number : Nat) → List Nat
  | 0, _ => []
  | width + 1, number => number % base :: ofNumber base width (number / base)

theorem ofNumber_add (base low high number : Nat) :
    ofNumber base (low + high) number =
      ofNumber base low (number % Nat.pow base low) ++
        ofNumber base high (number / Nat.pow base low) := by
  induction low generalizing number with
  | zero =>
      have whole : number / Nat.pow base 0 = number := Nat.div_one number
      rw [whole, Nat.zero_add]
      rfl
  | succ low induction =>
      have power : Nat.pow base (low + 1) = base * Nat.pow base low := Nat.mul_comm _ _
      have first : number % (base * Nat.pow base low) % base = number % base :=
        Nat.mod_mul_right_mod ..
      have others : number % (base * Nat.pow base low) / base =
          number / base % Nat.pow base low := Nat.mod_mul_right_div_self ..
      have above : number / (base * Nat.pow base low) = number / base / Nat.pow base low :=
        (Nat.div_div_eq_div_mul ..).symm
      rw [Nat.add_right_comm, power, above]
      simp only [ofNumber, first, others, List.cons_append, induction]

/-- Put the `width` lowest digits of a number before others, by halves. -/
def writeBefore (base width number : Nat) (others : List Nat) : List Nat :=
  if width = 0 then
    others
  else if width = 1 then
    number % base :: others
  else
    let low := width / 2
    let unit := Nat.pow base low
    writeBefore base low (number % unit)
      (writeBefore base (width - low) (number / unit) others)
termination_by width

theorem writeBefore_eq (base width number : Nat) (others : List Nat) :
    writeBefore base width number others = ofNumber base width number ++ others := by
  fun_induction writeBefore base width number others with
  | case1 => rfl
  | case2 => rfl
  | case3 width number others several more low unit inner _ outer =>
      have parts : low + (width - low) = width := by omega
      rw [outer, inner, ← List.append_assoc, ← ofNumber_add, parts]

def write (base width number : Nat) : List Nat := writeBefore base width number []

theorem write_eq_ofNumber (base width number : Nat) :
    write base width number = ofNumber base width number := by
  simp [write, writeBefore_eq]

example : write 10 5 1234 = [4, 3, 2, 1, 0] := by decide +kernel

example : total 10 [4, 3, 2, 1, 0] = 1234 := by decide +kernel

end Digits

end ByteStreams
