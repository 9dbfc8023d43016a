import Santiago.Protocol

/-!
# Santiago.Pairs

`PairParseFunctions.h`: name/value pairs as they stand in a params stream.

`parsePairs` walks a byte array by an index `m`, reads two lengths, then the
name and the value, and stops at the first thing that does not fit; whatever
was inserted before stays.  `writePair` is the other direction.

`LengthForm` and `PairsForm` say which byte strings encode a list of pairs:
a length below 128 in one byte or in four, a larger one in four.
`parsePairs_of_form` reads every such encoding back.
-/

namespace Santiago

open Bytes Std

/-- `std::map<std::string,std::string>`: ordered by the unsigned byte order. -/
abbrev ParamsMap := ExtTreeMap Bytes Bytes

/-! ## Reading -/

/-- `u[i]` as a number. -/
def byteAt (u : Bytes) (i : Nat) : Nat := (u.getD i 0).toNat

/-- The length field that starts at `m`, with the position behind it; `none`
where the source leaves the loop because the field is cut off. -/
def readLength (u : Bytes) (n m : Nat) : Option (Nat × Nat) :=
  if byteAt u m >>> 7 ≠ 0 then
    if n - m < 4 then
      none
    else
      some (((byteAt u m &&& 0x7f) <<< 24) + (byteAt u (m + 1) <<< 16) +
        (byteAt u (m + 2) <<< 8) + byteAt u (m + 3), m + 4)
  else
    some (byteAt u m, m + 1)

/-- One pass of the loop of `ParsePairs`: the pair that starts at `m` and the
position behind it; `none` at each of the `break`s. -/
def parsePair (u : Bytes) (n m : Nat) : Option ((Bytes × Bytes) × Nat) :=
  (readLength u n m).bind fun (nameLength, m) =>
    if m ≥ n then
      none
    else
      (readLength u n m).bind fun (valueLength, m) =>
        if n - m < nameLength then
          none
        else if n - (m + nameLength) < valueLength then
          none
        else
          some (((u.drop m).take nameLength, (u.drop (m + nameLength)).take valueLength),
            m + nameLength + valueLength)

/-- The loop of `ParsePairs` from position `m`.  Every pass moves `m` by at
least two, so `n` passes are more than the loop can make. -/
def parsePairsFrom : Nat → Bytes → Nat → Nat → ParamsMap → ParamsMap
  | 0, _, _, _, pairs => pairs
  | fuel + 1, u, n, m, pairs =>
      if m < n then
        match parsePair u n m with
        | none => pairs
        | some ((key, value), m') => parsePairsFrom fuel u n m' (pairs.insertIfNew key value)
      else
        pairs

/-- `ParsePairs(data, n, pairs)`: `insert` keeps the value a name already has. -/
def parsePairs (data : Bytes) (n : Nat) (pairs : ParamsMap) : ParamsMap :=
  parsePairsFrom n data n 0 pairs

/-! ## Writing -/

/-- One length as `WritePair` pushes it. -/
def writeLength (size : Nat) : Bytes :=
  if size > 0x7f then
    [UInt8.ofNat (0x80 + ((size >>> 24) &&& 0x7f)), octet (size >>> 16), octet (size >>> 8),
      octet size]
  else
    [UInt8.ofNat size]

/-- `WritePair(buffer, key, value)`: the buffer with the pair appended. -/
def writePair (buffer key value : Bytes) : Bytes :=
  buffer ++ writeLength key.length ++ writeLength value.length ++ key ++ value

/-! ## The encodings of a list of pairs -/

/-- The forms a length may take on the wire. -/
inductive LengthForm : Nat → Bytes → Prop
  | short {n : Nat} : n < 128 → LengthForm n [UInt8.ofNat n]
  | long {n : Nat} : n < 2 ^ 31 →
      LengthForm n [UInt8.ofNat (0x80 + n / 2 ^ 24), octet (n / 2 ^ 16), octet (n / 2 ^ 8), octet n]

/-- The encodings of a list of pairs, one pair after the other. -/
inductive PairsForm : List (Bytes × Bytes) → Bytes → Prop
  | nil : PairsForm [] []
  | cons {key value keyLength valueLength bs : Bytes} {pairs : List (Bytes × Bytes)} :
      LengthForm key.length keyLength → LengthForm value.length valueLength →
      PairsForm pairs bs →
      PairsForm ((key, value) :: pairs) (keyLength ++ valueLength ++ key ++ value ++ bs)

/-! ## Reading back what was encoded -/

theorem byteAt_append (pre rest : Bytes) (i : Nat) :
    byteAt (pre ++ rest) (pre.length + i) = byteAt rest i := by
  rw [byteAt, byteAt, List.getD_append_right _ _ _ _ (Nat.le_add_right _ _),
    Nat.add_sub_cancel_left]

/-- Both forms take at least one byte. -/
theorem LengthForm.length_pos {len : Nat} {field : Bytes} (h : LengthForm len field) :
    0 < field.length := by
  cases h <;> simp

/-- A length field is read back, whatever stands around it. -/
theorem readLength_append {len : Nat} {field : Bytes} (h : LengthForm len field)
    (pre rest : Bytes) {n : Nat} (hn : pre.length + field.length ≤ n) :
    readLength (pre ++ (field ++ rest)) n pre.length = some (len, pre.length + field.length) := by
  have hbyte : ∀ i, byteAt (pre ++ (field ++ rest)) (pre.length + i) = byteAt (field ++ rest) i :=
    byteAt_append pre (field ++ rest)
  have hzero := hbyte 0
  rw [Nat.add_zero] at hzero
  cases h with
  | short hlt =>
      have hval : byteAt ([UInt8.ofNat len] ++ rest) 0 = len := by
        simp [byteAt]; omega
      have htop : len >>> 7 = 0 := by
        rw [Nat.shiftRight_eq_div_pow]; omega
      rw [readLength, hzero, hval, htop]
      simp
  | long hlt =>
      have hfour : ¬ n - pre.length < 4 := by
        simp only [List.length_cons, List.length_nil] at hn; omega
      have h0 : byteAt ([UInt8.ofNat (0x80 + len / 2 ^ 24), octet (len / 2 ^ 16),
          octet (len / 2 ^ 8), octet len] ++ rest) 0 = 128 + len / 2 ^ 24 := by
        simp only [byteAt, List.cons_append, List.getD_cons_zero, UInt8.toNat_ofNat']
        omega
      have htop : (128 + len / 2 ^ 24) >>> 7 ≠ 0 := by
        rw [Nat.shiftRight_eq_div_pow]; omega
      have hmask : (128 + len / 2 ^ 24) &&& 0x7f = len / 2 ^ 24 := by
        have hmod := Nat.and_two_pow_sub_one_eq_mod (128 + len / 2 ^ 24) 7
        rw [show (2 : Nat) ^ 7 - 1 = 0x7f from rfl] at hmod
        rw [hmod]; omega
      rw [readLength, hzero, h0, if_pos htop, if_neg hfour, hmask, hbyte 1, hbyte 2, hbyte 3]
      simp only [byteAt, List.cons_append, List.getD_cons_succ, List.getD_cons_zero,
        toNat_octet, Nat.shiftLeft_eq, List.length_cons, List.length_nil, Option.some.injEq,
        Prod.mk.injEq, and_true]
      omega

/-- A pair in any of its forms is read back, and the position behind it. -/
theorem parsePair_append {key value keyLength valueLength : Bytes}
    (hk : LengthForm key.length keyLength) (hv : LengthForm value.length valueLength)
    (pre rest : Bytes) {n : Nat}
    (hn : pre.length + (keyLength ++ valueLength ++ key ++ value).length ≤ n) :
    parsePair (pre ++ (keyLength ++ valueLength ++ key ++ value ++ rest)) n pre.length =
      some ((key, value), pre.length + (keyLength ++ valueLength ++ key ++ value).length) := by
  simp only [List.length_append] at hn
  have hvpos := hv.length_pos
  have hname := readLength_append hk pre (valueLength ++ (key ++ (value ++ rest))) (n := n)
    (by omega)
  have hvalue := readLength_append hv (pre ++ keyLength) (key ++ (value ++ rest)) (n := n)
    (by rw [List.length_append]; omega)
  simp only [List.append_assoc, List.length_append] at hname hvalue ⊢
  have hkey : ((pre ++ (keyLength ++ (valueLength ++ (key ++ (value ++ rest))))).drop
      (pre.length + keyLength.length + valueLength.length)).take key.length = key := by
    have hlen : (pre ++ (keyLength ++ valueLength)).length =
        pre.length + keyLength.length + valueLength.length := by
      simp only [List.length_append]; omega
    rw [show pre ++ (keyLength ++ (valueLength ++ (key ++ (value ++ rest)))) =
      (pre ++ (keyLength ++ valueLength)) ++ (key ++ (value ++ rest)) by simp,
      drop_append_of_length hlen, take_append_of_length rfl]
  have hval : ((pre ++ (keyLength ++ (valueLength ++ (key ++ (value ++ rest))))).drop
      (pre.length + keyLength.length + valueLength.length + key.length)).take value.length =
        value := by
    have hlen : (pre ++ (keyLength ++ (valueLength ++ key))).length =
        pre.length + keyLength.length + valueLength.length + key.length := by
      simp only [List.length_append]; omega
    rw [show pre ++ (keyLength ++ (valueLength ++ (key ++ (value ++ rest)))) =
      (pre ++ (keyLength ++ (valueLength ++ key))) ++ (value ++ rest) by simp,
      drop_append_of_length hlen, take_append_of_length rfl]
  rw [parsePair, hname]
  simp only [Option.bind_some]
  rw [if_neg (by omega), hvalue]
  simp only [Option.bind_some]
  rw [if_neg (by omega), if_neg (by omega), hkey, hval]
  simp only [Option.some.injEq, Prod.mk.injEq, true_and]
  omega

/-- The map that inserts the pairs in order, a name keeping its first value. -/
def insertPairs (pairs : ParamsMap) (ps : List (Bytes × Bytes)) : ParamsMap :=
  ps.foldl (fun pairs p => pairs.insertIfNew p.1 p.2) pairs

/-- A name is mapped to what it had, or else to the value of its first occurrence. -/
theorem getElem?_insertPairs (pairs : ParamsMap) (ps : List (Bytes × Bytes)) (key : Bytes) :
    (insertPairs pairs ps)[key]? = (pairs[key]?).or (ps.lookup key) := by
  induction ps generalizing pairs with
  | nil => simp [insertPairs]
  | cons p ps ih =>
      obtain ⟨k, v⟩ := p
      have hstep : insertPairs pairs ((k, v) :: ps) = insertPairs (pairs.insertIfNew k v) ps := rfl
      rw [hstep, ih, ExtTreeMap.getElem?_insertIfNew, List.lookup_cons]
      by_cases hk : k = key
      · subst hk
        by_cases hmem : k ∈ pairs
        · simp [hmem]
        · simp [hmem]
      · have hcmp : ¬ compare k key = .eq := fun h => hk (LawfulEqCmp.eq_of_compare h)
        have hbeq : (key == k) = false := by simp [Ne.symm hk]
        simp [hcmp, hbeq]

/-- From any position that starts an encoding reaching the end, the loop
inserts exactly the encoded pairs.  Induction on the encoding: one pass of
the loop reads one pair. -/
theorem parsePairsFrom_of_form {ps : List (Bytes × Bytes)} {bs : Bytes} (h : PairsForm ps bs)
    (pre : Bytes) (pairs : ParamsMap) (fuel : Nat) {n : Nat} (hn : n = pre.length + bs.length)
    (hfuel : bs.length ≤ fuel) :
    parsePairsFrom fuel (pre ++ bs) n pre.length pairs = insertPairs pairs ps := by
  induction h generalizing pre pairs fuel with
  | nil =>
      cases fuel with
      | zero => rfl
      | succ fuel => rw [parsePairsFrom, if_neg (by simp [hn])]; rfl
  | @cons key value keyLength valueLength bs ps hk hv _ ih =>
      have hkpos := hk.length_pos
      simp only [List.length_append] at hn hfuel
      cases fuel with
      | zero => omega
      | succ fuel =>
          have hpair := parsePair_append hk hv pre bs (n := n)
            (by simp only [List.length_append]; omega)
          have hrest := ih (pre ++ (keyLength ++ valueLength ++ key ++ value))
            (pairs.insertIfNew key value) fuel
            (by simp only [List.length_append]; omega) (by omega)
          rw [parsePairsFrom, if_pos (by omega), hpair]
          simp only [List.length_append, List.append_assoc] at hrest ⊢
          exact hrest

/-- **Reading an encoding**: `ParsePairs` on an encoding of `ps` inserts
exactly `ps`, in order. -/
theorem parsePairs_of_form {ps : List (Bytes × Bytes)} {bs : Bytes} (h : PairsForm ps bs)
    (pairs : ParamsMap) : parsePairs bs bs.length pairs = insertPairs pairs ps := by
  have hall := parsePairsFrom_of_form h [] pairs bs.length (n := bs.length)
    (by simp) (Nat.le_refl _)
  rw [parsePairs]
  exact hall

end Santiago
