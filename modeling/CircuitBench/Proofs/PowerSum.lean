import CircuitBench.PowerSum
import Mathlib

/-!
# What a sum of powers gives, and what it does to its list

The list is turned round before the summation, and turned back only when that has ended well
(`powerSum_of_ok`, `powerSum_of_error`).  So a fault leaves it turned round, at whichever item it
arises: `fault_leaves_list_reversed`.

Of binary digits a zero adds one and a one adds two.  The sum is thus the number of the digits and
of the ones among them, and not the number that the digits write.  The two are the same for the
empty list, and for every numeral of three or more digits with just one number of zeros in front of
it: `digit_sum_is_numeral_iff`.
-/

namespace CircuitBench

/-! ## the list afterwards -/

section
variable {items : List Json}

theorem powerSum_eq (items : List Json) :
    powerSum items
      = (ofExcept (items.reverse.foldlM addPower (.whole 0)) >>= fun total => do
          modify List.reverse
          return total : InPlace Number).run.run items.reverse := rfl

theorem powerSum_of_ok {total : Number}
    (h : items.reverse.foldlM addPower (.whole 0) = .ok total) :
    powerSum items = (.ok total, items) := by
  rw [powerSum_eq, h]
  show (Except.ok total, items.reverse.reverse) = _
  rw [List.reverse_reverse]

theorem powerSum_of_error {fault : PowerFault}
    (h : items.reverse.foldlM addPower (.whole 0) = .error fault) :
    powerSum items = (.error fault, items.reverse) := by
  rw [powerSum_eq, h]
  rfl

theorem powerSum_fst (items : List Json) :
    (powerSum items).1 = items.reverse.foldlM addPower (.whole 0) := by
  cases h : items.reverse.foldlM addPower (.whole 0) with
  | error fault => rw [powerSum_of_error h]
  | ok total => rw [powerSum_of_ok h]

end

/-! ## where a fault arises -/

theorem exists_fault_of_foldlM {total : Number} {items : List Json} {fault : PowerFault}
    (h : items.foldlM addPower total = .error fault) : ∃ front item back sum,
      items = front ++ item :: back ∧ front.foldlM addPower total = .ok sum ∧
        addPower sum item = .error fault := by
  induction items generalizing total with
  | nil => cases h
  | cons item items ih =>
    rw [List.foldlM_cons] at h
    cases hadd : addPower total item with
    | error fault' =>
      rw [hadd] at h
      exact ⟨[], item, items, total, rfl, rfl, hadd.trans h⟩
    | ok next =>
      rw [hadd] at h
      obtain ⟨front, item', back, sum, rfl, hfront, hfault⟩ := ih h
      refine ⟨item :: front, item', back, sum, rfl, ?_, hfault⟩
      rw [List.foldlM_cons, hadd]
      exact hfront

/-- a fault arises at an item that cannot be added to the sum of those behind it -/
theorem powerSum_eq_error_iff {items : List Json} {fault : PowerFault} :
    (powerSum items).1 = .error fault ↔ ∃ front item back sum,
      items = front ++ item :: back ∧ (powerSum back).1 = .ok sum ∧
        addPower sum item = .error fault := by
  simp only [powerSum_fst]
  constructor
  · intro h
    obtain ⟨front, item, back, sum, hsplit, hfront, hfault⟩ := exists_fault_of_foldlM h
    refine ⟨back.reverse, item, front.reverse, sum, ?_, ?_, hfault⟩
    · rw [← List.reverse_reverse items, hsplit]
      simp
    · rwa [List.reverse_reverse]
  · rintro ⟨front, item, back, sum, rfl, hback, hfault⟩
    have hreverse : (front ++ item :: back).reverse = back.reverse ++ item :: front.reverse := by
      simp
    rw [hreverse, List.foldlM_append, hback]
    show (item :: front.reverse).foldlM addPower sum = _
    rw [List.foldlM_cons, hfault]
    rfl

/-- **A fault leaves the list turned round.**  A summation ends with a fault exactly if one item,
counted from the end of the list, cannot be added to the sum of those before it; the list is turned
round then.  So it is as it was exactly if there is no fault or it reads the same both ways. -/
theorem fault_leaves_list_reversed (items : List Json) :
    (∀ fault, (powerSum items).1 = .error fault ↔ ∃ front item back sum,
      items = front ++ item :: back ∧ (powerSum back).1 = .ok sum ∧
        addPower sum item = .error fault) ∧
    (∀ fault, (powerSum items).1 = .error fault → (powerSum items).2 = items.reverse) ∧
    ((powerSum items).2 = items ↔
      (∃ total, (powerSum items).1 = .ok total) ∨ items.reverse = items) := by
  refine ⟨fun fault => powerSum_eq_error_iff, ?_⟩
  cases h : items.reverse.foldlM addPower (.whole 0) with
  | error fault =>
    rw [powerSum_of_error h]
    simp
  | ok total =>
    rw [powerSum_of_ok h]
    simp

/-- the last item is added, the one before it cannot be -/
theorem fault_in_the_middle_reverses_list :
    (powerSum [.text "0", .null, .text "1"]).1 = .error (.item (.kind "NoneType")) ∧
      (powerSum [.text "0", .null, .text "1"]).2 = [.text "1", .null, .text "0"] := by
  have hback : (powerSum [.text "1"]).1 = .ok (.whole 2) := rfl
  have hfault : addPower (.whole 2) .null = .error (.item (.kind "NoneType")) := rfl
  obtain ⟨hiff, hlist, _⟩ := fault_leaves_list_reversed [.text "0", .null, .text "1"]
  have hsum := (hiff _).2 ⟨[.text "0"], .null, [.text "1"], _, rfl, hback, hfault⟩
  exact ⟨hsum, hlist _ hsum⟩

/-- the list is not as it was -/
theorem malformed_item_changes_list :
    powerSum [.text "x", .text "1"]
        = (.error (.item (.written (.malformed "x"))), [.text "1", .text "x"]) ∧
      [Json.text "1", .text "x"] ≠ [.text "x", .text "1"] := by
  refine ⟨rfl, ?_⟩
  simp [Json.text, Text.Wide.ofString, Text.Wide.ofChars]

/-! ## binary digits -/

/-- a binary digit as an item of a list -/
def digit (b : Bool) : Json := .text (if b then "1" else "0")

/-- the number that binary digits write, the leading one first -/
def numeral (bits : List Bool) : Nat := Nat.ofDigits 2 (bits.map Bool.toNat).reverse

theorem numeral_cons (b : Bool) (bits : List Bool) :
    numeral (b :: bits) = b.toNat * 2 ^ bits.length + numeral bits := by
  rw [numeral, List.map_cons, Nat.ofDigits_reverse_cons, List.length_map, numeral]
  ring

theorem numeral_zeros (zeros : Nat) (bits : List Bool) :
    numeral (List.replicate zeros false ++ bits) = numeral bits := by
  induction zeros with
  | zero => rfl
  | succ zeros ih =>
    rw [List.replicate_succ, List.cons_append, numeral_cons, ih, Bool.toNat_false, Nat.zero_mul,
      Nat.zero_add]

theorem count_le_numeral (bits : List Bool) : bits.count true ≤ numeral bits := by
  induction bits with
  | nil => exact Nat.zero_le _
  | cons b bits ih =>
    have hpow := Nat.one_le_two_pow (n := bits.length)
    rw [numeral_cons]
    cases b with
    | false => simpa using ih
    | true =>
      rw [List.count_cons_self, Bool.toNat_true]
      omega

/-- a numeral of one or two digits is less than the number of its digits and ones, and no longer one
is -/
theorem length_add_count_le_numeral_iff (rest : List Bool) :
    rest.length + 1 + (rest.count true + 1) ≤ numeral (true :: rest) ↔ 2 ≤ rest.length := by
  have hcount := count_le_numeral rest
  rw [numeral_cons, Bool.toNat_true, Nat.one_mul]
  constructor
  · intro h
    rcases rest with _ | ⟨a, _ | ⟨b, rest⟩⟩
    · revert h
      decide
    · revert h
      cases a <;> decide
    · exact Nat.le_add_left 2 rest.length
  · intro h
    obtain ⟨k, hk⟩ := Nat.exists_eq_add_of_le h
    have hpow : rest.length + 2 ≤ 2 ^ rest.length := by
      have hlt : k < 2 ^ k := Nat.lt_two_pow_self
      rw [hk, Nat.pow_add]
      omega
    omega

theorem exists_leading_one (bits : List Bool) :
    bits = List.replicate bits.length false ∨
      ∃ zeros rest, bits = List.replicate zeros false ++ true :: rest := by
  induction bits with
  | nil => exact .inl rfl
  | cons b bits ih =>
    cases b with
    | true => exact .inr ⟨0, bits, rfl⟩
    | false =>
      rcases ih with h | ⟨zeros, rest, h⟩
      · left
        rw [List.length_cons, List.replicate_succ, ← h]
      · right
        exact ⟨zeros + 1, rest, by rw [h]; rfl⟩

/-! ## the sum of digits -/

theorem toWhole_digit (b : Bool) : (digit b).toWhole = .ok (b.toNat : Int) := by
  cases b <;> rfl

theorem addPower_digit (n : Nat) (b : Bool) :
    addPower (.whole n) (digit b) = .ok (.whole (n + 1 + b.toNat : Nat)) := by
  have hpow : (2 : Int) ^ b.toNat = 1 + b.toNat := by cases b <;> rfl
  have hsum : (n : Int) + 2 ^ b.toNat = (n + 1 + b.toNat : Nat) := by
    rw [hpow]
    push_cast
    ring
  simp only [addPower, toWhole_digit, Except.mapError, bind, Except.bind,
    Number.powerOfTwo_natCast, Number.add_whole, hsum]

theorem foldlM_addPower_digits (bits : List Bool) (n : Nat) :
    (bits.map digit).foldlM addPower (.whole n)
      = .ok (.whole (n + bits.length + bits.count true : Nat)) := by
  induction bits generalizing n with
  | nil => rfl
  | cons b bits ih =>
    have hcount : (b :: bits).count true = bits.count true + b.toNat := by
      cases b <;> simp
    rw [List.map_cons, List.foldlM_cons, addPower_digit]
    show (bits.map digit).foldlM addPower _ = _
    rw [ih, hcount, List.length_cons]
    congr 3
    omega

theorem powerSum_digits (bits : List Bool) :
    powerSum (bits.map digit)
      = (.ok (.whole (bits.length + bits.count true : Nat)), bits.map digit) := by
  apply powerSum_of_ok
  have h := foldlM_addPower_digits bits.reverse 0
  rw [List.length_reverse, List.count_reverse, Nat.zero_add] at h
  rwa [← List.map_reverse]

theorem numeral_eq_length_add_count_iff (bits : List Bool) :
    bits.length + bits.count true = numeral bits ↔ bits = [] ∨ ∃ rest, 2 ≤ rest.length ∧
      bits = List.replicate (numeral (true :: rest) - (rest.length + 1) - (rest.count true + 1))
        false ++ true :: rest := by
  have hlead (zeros : Nat) (rest : List Bool) :
      (List.replicate zeros false ++ true :: rest).length
        + (List.replicate zeros false ++ true :: rest).count true
        = zeros + (rest.length + 1 + (rest.count true + 1)) := by
    simp [List.count_replicate]
    omega
  constructor
  · intro h
    rcases exists_leading_one bits with hzeros | ⟨zeros, rest, rfl⟩
    · left
      have h0 := numeral_zeros bits.length []
      rw [List.append_nil, ← hzeros] at h0
      rw [h0] at h
      exact List.eq_nil_of_length_eq_zero (Nat.eq_zero_of_add_eq_zero_right h)
    · right
      rw [numeral_zeros, hlead] at h
      refine ⟨rest, (length_add_count_le_numeral_iff rest).1 (by omega), ?_⟩
      congr 2
      omega
  · rintro (rfl | ⟨rest, hrest, hbits⟩)
    · rfl
    · have hle := (length_add_count_le_numeral_iff rest).2 hrest
      rw [hbits, numeral_zeros, hlead]
      omega

/-- **Digits are counted, not read.**  The sum of binary digits is their number and the number of
the ones among them, and the list stays.  This is the number that the digits write exactly if there
are none, or there are three or more from the first one on and before that as many zeros as make up
the difference. -/
theorem digit_sum_is_numeral_iff (bits : List Bool) :
    powerSum (bits.map digit)
      = (.ok (.whole (bits.length + bits.count true : Nat)), bits.map digit) ∧
    ((powerSum (bits.map digit)).1 = .ok (.whole (numeral bits)) ↔
      bits = [] ∨ ∃ rest, 2 ≤ rest.length ∧
        bits = List.replicate (numeral (true :: rest) - (rest.length + 1) - (rest.count true + 1))
          false ++ true :: rest) := by
  refine ⟨powerSum_digits bits, ?_⟩
  rw [powerSum_digits, ← numeral_eq_length_add_count_iff]
  simp only [Except.ok.injEq, Number.whole.injEq, Nat.cast_inj]

/-- five is the value of its three digits and their sum -/
theorem five_is_digit_sum :
    (powerSum ([true, false, true].map digit)).1 = .ok (.whole (numeral [true, false, true])) := by
  have hfive := digit_sum_is_numeral_iff [true, false, true]
  exact hfive.2.2 (.inr ⟨[false, true], by decide, by decide⟩)

/-- a single zero is summed up to one -/
theorem lone_zero_sums_to_one :
    powerSum ([false].map digit) = (.ok (.whole 1), [false].map digit) ∧ numeral [false] = 0 :=
  ⟨rfl, rfl⟩

end CircuitBench
