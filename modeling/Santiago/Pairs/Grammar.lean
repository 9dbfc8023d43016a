import Santiago.Lib.Delimited
import Santiago.Pairs

/-!
# Santiago.Pairs.Grammar

What `ParsePairs` accepts.  A complete pair is two lengths, the name and the
value; complete pairs are self-delimiting, so every byte array begins with a
longest sequence of them, and `ParsePairs` inserts that sequence and nothing
else.  `WritePair` writes complete pairs, so reading undoes writing.
-/

namespace Santiago

open Bytes Std Delimited

/-! ## Complete pairs -/

/-- A complete pair: a name length, a value length, the name and the value. -/
def PairForm (p : Bytes × Bytes) (bs : Bytes) : Prop :=
  ∃ keyLength valueLength, LengthForm p.1.length keyLength ∧
    LengthForm p.2.length valueLength ∧
    bs = keyLength ++ valueLength ++ p.1 ++ p.2

theorem pairsForm_iff {ps : List (Bytes × Bytes)} {bs : Bytes} :
    PairsForm ps bs ↔ Many PairForm ps bs := by
  constructor
  · intro h
    induction h with
    | nil => exact .nil
    | cons hk hv _ ih => exact .cons ⟨_, _, hk, hv, rfl⟩ ih
  · intro h
    induction h with
    | nil => exact .nil
    | cons hp _ ih =>
        obtain ⟨_, _, hk, hv, rfl⟩ := hp
        exact .cons hk hv ih

/-- A length in four bytes, as the masks and shifts of the source put them together. -/
theorem LengthForm.of_four {b3 b2 b1 b0 : UInt8} (h : 128 ≤ b3.toNat) :
    LengthForm (((b3.toNat &&& 0x7f) <<< 24) + (b2.toNat <<< 16) + (b1.toNat <<< 8) + b0.toNat)
      [b3, b2, b1, b0] := by
  have h3 := UInt8.toNat_lt b3
  have h2 := UInt8.toNat_lt b2
  have h1 := UInt8.toNat_lt b1
  have h0 := UInt8.toNat_lt b0
  have hmask : b3.toNat &&& 0x7f = b3.toNat - 128 := by
    have hmod : b3.toNat &&& 0x7f = b3.toNat % 2 ^ 7 := Nat.and_two_pow_sub_one_eq_mod b3.toNat 7
    rw [hmod]
    omega
  rw [hmask]
  simp only [Nat.shiftLeft_eq]
  generalize hlen : (b3.toNat - 128) * 2 ^ 24 + b2.toNat * 2 ^ 16 + b1.toNat * 2 ^ 8 +
    b0.toNat = len
  have hfour : [b3, b2, b1, b0] = [UInt8.ofNat (0x80 + len / 2 ^ 24), octet (len / 2 ^ 16),
      octet (len / 2 ^ 8), octet len] := by
    simp only [List.cons.injEq, and_true, ← UInt8.toNat_inj, toNat_octet, UInt8.toNat_ofNat']
    omega
  rw [hfour]
  exact .long (by omega)

/-- A string that begins with a length field begins with one only. -/
theorem LengthForm.unique {len len' : Nat} {field field' rest rest' : Bytes}
    (h : LengthForm len field) (h' : LengthForm len' field')
    (heq : field ++ rest = field' ++ rest') : len = len' ∧ field = field' := by
  have hread := readLength_append h [] rest (n := field.length + field'.length) (by simp)
  have hread' := readLength_append h' [] rest' (n := field.length + field'.length) (by simp)
  rw [heq, hread'] at hread
  simp only [List.length_nil, Nat.zero_add, Option.some.injEq, Prod.mk.injEq] at hread
  exact ⟨hread.1.symm, (List.append_inj heq hread.2.symm).1⟩

/-- **The grammar of a length**: one byte below 0x80, or four bytes, high byte
first, with the top bit set and masked off. -/
theorem lengthForm_iff {len : Nat} {field : Bytes} :
    LengthForm len field ↔
      (∃ b : UInt8, field = [b] ∧ b.toNat < 0x80 ∧ len = b.toNat) ∨
      ∃ b3 b2 b1 b0 : UInt8, field = [b3, b2, b1, b0] ∧ 0x80 ≤ b3.toNat ∧
        len = ((b3.toNat &&& 0x7f) <<< 24) + (b2.toNat <<< 16) + (b1.toNat <<< 8) + b0.toNat := by
  constructor
  · intro h
    cases h with
    | short hlt =>
        have hbyte : (UInt8.ofNat len).toNat = len := by
          rw [UInt8.toNat_ofNat']
          omega
        exact .inl ⟨_, rfl, by rwa [hbyte], hbyte.symm⟩
    | long hlt =>
        have htop : 0x80 ≤ (UInt8.ofNat (0x80 + len / 2 ^ 24)).toNat := by
          rw [UInt8.toNat_ofNat']
          omega
        have hfour := @LengthForm.of_four _ (octet (len / 2 ^ 16)) (octet (len / 2 ^ 8))
          (octet len) htop
        obtain ⟨hlen, _⟩ := @LengthForm.unique _ _ _ _ [] [] (.long hlt) hfour rfl
        exact .inr ⟨_, _, _, _, rfl, htop, hlen⟩
  · rintro (⟨b, rfl, hb, rfl⟩ | ⟨b3, b2, b1, b0, rfl, hb, rfl⟩)
    · have hform := LengthForm.short hb
      rwa [UInt8.ofNat_toNat] at hform
    · exact .of_four hb

/-- A pair is read back, whatever stands behind it. -/
theorem PairForm.parsePair_append {key value enc : Bytes} (h : PairForm (key, value) enc)
    (pre rest : Bytes) {n : Nat} (hn : pre.length + enc.length ≤ n) :
    parsePair (pre ++ (enc ++ rest)) n pre.length =
      some ((key, value), pre.length + enc.length) := by
  obtain ⟨keyLength, valueLength, hk, hv, rfl⟩ := h
  exact Santiago.parsePair_append hk hv pre rest hn

/-- Complete pairs are self-delimiting. -/
theorem delimits_pairForm : Delimits PairForm where
  ne_nil p enc h := by
    obtain ⟨keyLength, valueLength, hk, _, rfl⟩ := h
    have hpos := hk.length_pos
    refine List.ne_nil_of_length_pos ?_
    simp only [List.length_append]
    omega
  unique p p' enc enc' rest rest' h h' heq := by
    obtain ⟨key, value⟩ := p
    obtain ⟨key', value'⟩ := p'
    have hread := h.parsePair_append [] rest (n := enc.length + enc'.length) (by simp)
    have hread' := h'.parsePair_append [] rest' (n := enc.length + enc'.length) (by simp)
    rw [heq, hread', Option.some.injEq, Prod.mk.injEq] at hread
    simp only [List.length_nil, Nat.zero_add] at hread
    exact ⟨hread.1.symm, (List.append_inj heq hread.2.symm).1⟩

/-! ## What `ParsePairs` reads was there -/

theorem drop_eq_getD_cons {u : Bytes} {i : Nat} (h : i < u.length) :
    u.drop i = u.getD i 0 :: u.drop (i + 1) := by
  rw [List.drop_eq_getElem_cons h, List.getD_eq_getElem _ _ h]

/-- A length that is read stands at the position it is read from. -/
theorem exists_of_readLength {u : Bytes} {m len m' : Nat} (hm : m < u.length)
    (h : readLength u u.length m = some (len, m')) :
    ∃ field, LengthForm len field ∧ u.drop m = field ++ u.drop m' ∧
      m' = m + field.length := by
  rw [readLength] at h
  split at h
  · next htop =>
      split at h
      · cases h
      · next hfour =>
          rw [Option.some.injEq, Prod.mk.injEq] at h
          obtain ⟨rfl, rfl⟩ := h
          have hbit : 128 ≤ (u.getD m 0).toNat := by
            rw [byteAt, Nat.shiftRight_eq_div_pow] at htop
            omega
          refine ⟨[u.getD m 0, u.getD (m + 1) 0, u.getD (m + 2) 0, u.getD (m + 3) 0],
            .of_four hbit, ?_, rfl⟩
          rw [drop_eq_getD_cons hm, drop_eq_getD_cons (by omega), drop_eq_getD_cons (by omega),
            drop_eq_getD_cons (by omega)]
          rfl
  · next htop =>
      rw [Option.some.injEq, Prod.mk.injEq] at h
      obtain ⟨rfl, rfl⟩ := h
      have hbyte : (u.getD m 0).toNat < 128 := by
        rw [byteAt, Nat.shiftRight_eq_div_pow] at htop
        omega
      have hform := LengthForm.short hbyte
      rw [UInt8.ofNat_toNat] at hform
      exact ⟨_, hform, drop_eq_getD_cons hm, rfl⟩

/-- A pair that is read stands at the position it is read from. -/
theorem exists_of_parsePair {u key value : Bytes} {m m' : Nat} (hm : m < u.length)
    (h : parsePair u u.length m = some ((key, value), m')) :
    ∃ enc, PairForm (key, value) enc ∧ u.drop m = enc ++ u.drop m' ∧ m' = m + enc.length := by
  rw [parsePair, Option.bind_eq_some_iff] at h
  obtain ⟨⟨nameLength, m₁⟩, hname, h⟩ := h
  dsimp only at h
  split at h
  · cases h
  next hm₁ =>
  rw [Option.bind_eq_some_iff] at h
  obtain ⟨⟨valueLength, m₂⟩, hvalue, h⟩ := h
  dsimp only at h
  split at h
  · cases h
  next hfits =>
  split at h
  · cases h
  next hfits' =>
  simp only [Option.some.injEq, Prod.mk.injEq] at h
  obtain ⟨⟨rfl, rfl⟩, rfl⟩ := h
  obtain ⟨nameField, hnameForm, hdrop₁, hpos₁⟩ := exists_of_readLength hm hname
  obtain ⟨valueField, hvalueForm, hdrop₂, hpos₂⟩ :=
    exists_of_readLength (Nat.lt_of_not_ge hm₁) hvalue
  have hkey : ((u.drop m₂).take nameLength).length = nameLength := by
    rw [List.length_take, List.length_drop]
    omega
  have hval : ((u.drop (m₂ + nameLength)).take valueLength).length = valueLength := by
    rw [List.length_take, List.length_drop]
    omega
  refine ⟨_, ⟨nameField, valueField, by rwa [hkey], by rwa [hval], rfl⟩, ?_, ?_⟩
  · have hsplit : ∀ i k, (u.drop i).take k ++ u.drop (i + k) = u.drop i := fun i k => by
      rw [← List.drop_drop, List.take_append_drop]
    rw [hdrop₁, hdrop₂]
    simp only [List.append_assoc]
    rw [hsplit, hsplit]
  · simp only [List.length_append, hkey, hval]
    omega

/-- The loop stops where no complete pair stands. -/
theorem not_starts_of_parsePair {u : Bytes} {m : Nat} (hm : m ≤ u.length)
    (h : parsePair u u.length m = none) : ¬ Starts PairForm (u.drop m) := by
  rintro ⟨⟨key, value⟩, enc, rest, hp, hdrop⟩
  have hpre : (u.take m).length = m := by
    rw [List.length_take]
    omega
  have hlen := congrArg List.length hdrop
  rw [List.length_drop, List.length_append] at hlen
  have hread := hp.parsePair_append (u.take m) rest (n := u.length) (by omega)
  rw [← hdrop, List.take_append_drop, hpre, h] at hread
  cases hread

/-! ## The loop -/

/-- From any position the loop inserts the complete pairs of the longest
sequence that stands there.  Induction on the passes; a pass reads the first
pair of the sequence, or there is none. -/
theorem parsePairsFrom_splits {u rest : Bytes} {fuel m : Nat} {ps : List (Bytes × Bytes)}
    (pairs : ParamsMap) (hfuel : u.length - m ≤ fuel) (h : Splits PairForm (u.drop m) ps rest) :
    parsePairsFrom fuel u u.length m pairs = insertPairs pairs ps := by
  have hend : ¬ Starts PairForm (u.drop m) → ps = [] := fun hstop =>
    (h.unique delimits_pairForm (.of_not_starts hstop)).1
  induction fuel generalizing m ps pairs with
  | zero =>
      rw [hend (by
        rw [List.drop_eq_nil_of_le (by omega)]
        exact delimits_pairForm.not_starts_nil)]
      rfl
  | succ fuel ih =>
      rw [parsePairsFrom]
      by_cases hm : m < u.length
      · rw [if_pos hm]
        cases hpair : parsePair u u.length m with
        | none =>
            rw [hend (not_starts_of_parsePair hm.le hpair)]
            rfl
        | some r =>
            obtain ⟨⟨key, value⟩, m'⟩ := r
            obtain ⟨enc, hp, hdrop, rfl⟩ := exists_of_parsePair hm hpair
            have hpos := List.length_pos_of_ne_nil (delimits_pairForm.ne_nil _ _ hp)
            obtain ⟨ps', rest', hrest⟩ :=
              exists_splits delimits_pairForm (u.drop (m + enc.length))
            have hall := hrest.cons hp
            rw [← hdrop] at hall
            obtain ⟨rfl, rfl⟩ := h.unique delimits_pairForm hall
            exact ih _ (by omega) hrest fun hstop =>
              (hrest.unique delimits_pairForm (.of_not_starts hstop)).1
      · rw [if_neg hm, hend (by
          rw [List.drop_eq_nil_of_le (by omega)]
          exact delimits_pairForm.not_starts_nil)]
        rfl

theorem parsePairs_splits {data rest : Bytes} {ps : List (Bytes × Bytes)} (pairs : ParamsMap)
    (h : Splits PairForm data ps rest) :
    parsePairs data data.length pairs = insertPairs pairs ps := by
  rw [parsePairs]
  exact parsePairsFrom_splits pairs (Nat.sub_le _ _) h

/-- **What `ParsePairs` accepts.**  A byte array splits in one way only into a
longest sequence of complete pairs and a rest that does not begin with one;
exactly these pairs are inserted, in order, and a name keeps the value it had
or got first. -/
theorem parsePairs_accepts (data : Bytes) (pairs : ParamsMap) :
    ∃ ps rest, Splits PairForm data ps rest ∧
      (∀ ps' rest', Splits PairForm data ps' rest' → ps' = ps ∧ rest' = rest) ∧
      (∀ ps' front, Many PairForm ps' front → front <+: data → ps' <+: ps) ∧
      parsePairs data data.length pairs = insertPairs pairs ps ∧
      ∀ key : Bytes,
        (parsePairs data data.length pairs)[key]? = (pairs[key]?).or (ps.lookup key) := by
  obtain ⟨ps, rest, h⟩ := exists_splits delimits_pairForm data
  have hparse := parsePairs_splits pairs h
  refine ⟨ps, rest, h, fun _ _ h' => h'.unique delimits_pairForm h, ?_, hparse, fun key => ?_⟩
  · rintro ps' front hps ⟨back, rfl⟩
    exact h.isPrefix delimits_pairForm hps rfl
  · rw [hparse, getElem?_insertPairs]

/-! ## Reading undoes writing -/

/-- A length below 2^31 is written in its grammar. -/
theorem lengthForm_writeLength {n : Nat} (h : n < 2 ^ 31) : LengthForm n (writeLength n) := by
  rw [writeLength]
  split
  · next hlong =>
      have hmask : (n >>> 24) &&& 0x7f = n / 2 ^ 24 := by
        have hmod : (n >>> 24) &&& 0x7f = (n >>> 24) % 2 ^ 7 := Nat.and_two_pow_sub_one_eq_mod _ 7
        rw [hmod, Nat.shiftRight_eq_div_pow]
        omega
      rw [hmask, Nat.shiftRight_eq_div_pow, Nat.shiftRight_eq_div_pow]
      exact .long h
  · next hshort => exact .short (by omega)

/-- The pairs appended one after the other to an empty buffer. -/
def writePairs (ps : List (Bytes × Bytes)) : Bytes :=
  ps.foldl (fun buffer p => writePair buffer p.1 p.2) []

/-- Keys and values that the four bytes of a length can count. -/
def Countable (p : Bytes × Bytes) : Prop := p.1.length < 2 ^ 31 ∧ p.2.length < 2 ^ 31

theorem pairForm_writePair {p : Bytes × Bytes} (h : Countable p) :
    PairForm p (writePair [] p.1 p.2) :=
  ⟨_, _, lengthForm_writeLength h.1, lengthForm_writeLength h.2, by simp [writePair]⟩

theorem writePair_append (buffer key value : Bytes) :
    writePair buffer key value = buffer ++ writePair [] key value := by
  simp [writePair]

theorem writePairs_eq_flatMap (ps : List (Bytes × Bytes)) :
    writePairs ps = ps.flatMap fun p => writePair [] p.1 p.2 := by
  have hfold : ∀ buffer, ps.foldl (fun buffer p => writePair buffer p.1 p.2) buffer =
      buffer ++ ps.flatMap fun p => writePair [] p.1 p.2 := by
    induction ps with
    | nil => simp
    | cons p ps ih =>
        intro buffer
        rw [List.foldl_cons, ih, writePair_append, List.flatMap_cons, List.append_assoc]
  rw [writePairs, hfold, List.nil_append]

theorem many_writePairs {ps : List (Bytes × Bytes)} (h : ∀ p ∈ ps, Countable p) :
    Many PairForm ps (writePairs ps) := by
  rw [writePairs_eq_flatMap]
  induction ps with
  | nil => exact .nil
  | cons p ps ih =>
      rw [List.flatMap_cons]
      exact .cons (pairForm_writePair (h p List.mem_cons_self))
        (ih fun q hq => h q (List.mem_cons_of_mem p hq))

/-- **`ParsePairs` undoes `WritePair`.**  The written buffer, read into an
empty map, maps each key to the value of its first occurrence; and the buffer
determines the pairs. -/
theorem parsePairs_writePairs {ps : List (Bytes × Bytes)} (h : ∀ p ∈ ps, Countable p)
    (hlen : (writePairs ps).length < 2 ^ 32) :
    (∀ key : Bytes,
      (parsePairs (writePairs ps) ((writePairs ps).length % 2 ^ 32) ∅)[key]? = ps.lookup key) ∧
    ∀ ps', (∀ p ∈ ps', Countable p) → writePairs ps' = writePairs ps → ps' = ps := by
  have hmany := many_writePairs h
  constructor
  · intro key
    rw [Nat.mod_eq_of_lt hlen, parsePairs_of_form (pairsForm_iff.mpr hmany),
      getElem?_insertPairs]
    simp
  · intro ps' h' heq
    have hmany' := many_writePairs h'
    rw [heq] at hmany'
    exact hmany'.unique delimits_pairForm hmany

/-- The same name twice, and an empty name with an empty value. -/
theorem parsePairs_writePairs_twice :
    (parsePairs (writePairs [([65], [1]), ([], []), ([65], [2])])
      ((writePairs [([65], [1]), ([], []), ([65], [2])]).length % 2 ^ 32) ∅)[([65] : Bytes)]? =
        some [1] := by
  have hsmall : ∀ p ∈ ([([65], [1]), ([], []), ([65], [2])] : List (Bytes × Bytes)),
      Countable p := by
    unfold Countable
    decide
  exact (parsePairs_writePairs hsmall (by decide)).1 [65]

end Santiago
