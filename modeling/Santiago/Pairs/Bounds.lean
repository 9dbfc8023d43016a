import Santiago.Lib.Effect
import Santiago.Pairs.Grammar

/-!
# Santiago.Pairs.Bounds

`ParsePairs` stays inside its input.  `Santiago.Pairs` computes with natural
numbers and reads whatever it likes; here the loop is written out as the
machine runs it, with positions that wrap at 64 bits, and everything that
could go wrong is an event: a subtraction, a byte read, a length put
together, a range copied.  `parsePairs_inside` says that nothing does, and
that the two agree.
-/

namespace Santiago.ParsePairs

open Effect Bytes Std Delimited

/-- What the loop does to its input and its position. -/
inductive Access where
  /-- `n - m` is evaluated. -/
  | remaining (m : Nat)
  /-- `u[i]`. -/
  | read (i : Nat)
  /-- The shifts and sums of a length, an `int`, gave this number. -/
  | length (value : Nat)
  /-- `std::string(data + start, size)`. -/
  | copy (start size : Nat)

/-- `a + b` of the unsigned 64-bit `size_type`. -/
def add (a b : Nat) : Nat := (a + b) % 2 ^ 64

/-- `a - b` of the unsigned 64-bit `size_type`. -/
def sub (a b : Nat) : Nat := (a + (2 ^ 64 - b)) % 2 ^ 64

/-- The length field at `m`, and the position behind it; `none` at the `break`. -/
def readLength (u : Bytes) (n m : Nat) : Act Access ParamsMap (Option (Nat × Nat)) := do
  Act.emit (.read m)
  if byteAt u m >>> 7 ≠ 0 then do
    Act.emit (.remaining m)
    if sub n m < 4 then
      pure none
    else do
      Act.emits [.read m, .read (add m 1), .read (add m 2), .read (add m 3)]
      let length := ((byteAt u m &&& 0x7f) <<< 24) + (byteAt u (add m 1) <<< 16) +
        (byteAt u (add m 2) <<< 8) + byteAt u (add m 3)
      Act.emit (.length length)
      pure (some (length, add m 4))
  else do
    Act.emits [.read m, .length (byteAt u m)]
    pure (some (byteAt u m, add m 1))

/-- The pair behind its two lengths, which is inserted; the result is the next
position. -/
def readPair (u : Bytes) (n m nameLength valueLength : Nat) :
    Act Access ParamsMap (Option Nat) := do
  Act.emit (.remaining m)
  if sub n m < nameLength then
    pure none
  else do
    Act.emit (.copy m nameLength)
    let key := (u.drop m).take nameLength
    let m := add m nameLength
    Act.emit (.remaining m)
    if sub n m < valueLength then
      pure none
    else do
      Act.emit (.copy m valueLength)
      Act.modify fun pairs => pairs.insertIfNew key ((u.drop m).take valueLength)
      pure (some (add m valueLength))

/-- One pass of the loop. -/
def pass (u : Bytes) (n m : Nat) : Act Access ParamsMap (Option Nat) := do
  match ← readLength u n m with
  | none => pure none
  | some (nameLength, m) =>
      if m ≥ n then
        pure none
      else do
        match ← readLength u n m with
        | none => pure none
        | some (valueLength, m) => readPair u n m nameLength valueLength

/-- The loop from position `m`, for so many passes; the result says whether it
has ended. -/
def loop (u : Bytes) (n : Nat) : Nat → Nat → Act Access ParamsMap Bool
  | 0, _ => pure false
  | passes + 1, m =>
      if m < n then do
        match ← pass u n m with
        | none => pure true
        | some m => loop u n passes m
      else
        pure true

/-- Nothing goes wrong on an input of `n` bytes: no subtraction wraps, nothing
outside is read or copied, and a length fits its `int`. -/
def Access.Inside (n : Nat) : Access → Prop
  | .remaining m => m ≤ n
  | .read i => i < n
  | .length value => value < 2 ^ 31
  | .copy start size => start + size ≤ n

/-! ## Each piece of a pass -/

theorem add_eq {a b : Nat} (h : a + b < 2 ^ 64) : add a b = a + b := Nat.mod_eq_of_lt h

theorem sub_eq {a b : Nat} (h : b ≤ a) (ha : a < 2 ^ 64) : sub a b = a - b := by
  rw [sub]
  omega

/-- `x` returns what `a` says, leaves the map `pairs'`, and stays inside. -/
def RunsInside {α : Type} (n : Nat) (x : Act Access ParamsMap α) (pairs : ParamsMap) (a : α)
    (pairs' : ParamsMap) : Prop :=
  ∃ es, x pairs = ⟨.ret a, pairs', es⟩ ∧ ∀ e ∈ es, Access.Inside n e

theorem RunsInside.bind {α β : Type} {n : Nat} {x : Act Access ParamsMap α}
    {f : α → Act Access ParamsMap β} {pairs pairs' pairs'' : ParamsMap} {a : α} {b : β}
    (hx : RunsInside n x pairs a pairs') (hf : RunsInside n (f a) pairs' b pairs'') :
    RunsInside n (x >>= f) pairs b pairs'' := by
  obtain ⟨es, hrun, hes⟩ := hx
  obtain ⟨es', hrun', hes'⟩ := hf
  refine ⟨es ++ es', ?_, fun e he => ?_⟩
  · rw [Act.bind_of_ret hrun, hrun', Outcome.after_mk]
  · obtain he | he := List.mem_append.mp he
    · exact hes e he
    · exact hes' e he

theorem runsInside_pure {α : Type} (n : Nat) (a : α) (pairs : ParamsMap) :
    RunsInside n (pure a) pairs a pairs :=
  ⟨[], rfl, by simp⟩

theorem runsInside_emits {n : Nat} {es : List Access} (h : ∀ e ∈ es, Access.Inside n e)
    (pairs : ParamsMap) : RunsInside n (Act.emits es) pairs () pairs :=
  ⟨es, rfl, h⟩

theorem runsInside_emit {n : Nat} {e : Access} (h : Access.Inside n e) (pairs : ParamsMap) :
    RunsInside n (Act.emit e) pairs () pairs :=
  ⟨[e], rfl, by simpa using h⟩

/-- A length that is read is below 2^31, and the position behind it inside. -/
theorem readLength_bounds {u : Bytes} {m len m' : Nat} (hm : m < u.length)
    (h : Santiago.readLength u u.length m = some (len, m')) :
    len < 2 ^ 31 ∧ m < m' ∧ m' ≤ u.length := by
  obtain ⟨field, hform, hdrop, rfl⟩ := exists_of_readLength hm h
  have hpos := hform.length_pos
  have hlen := congrArg List.length hdrop
  rw [List.length_append, List.length_drop, List.length_drop] at hlen
  refine ⟨?_, by omega, by omega⟩
  cases hform with
  | short hlt => omega
  | long hlt => exact hlt

theorem runsInside_readLength {u : Bytes} {m : Nat} (hu : u.length < 2 ^ 32) (hm : m < u.length)
    (pairs : ParamsMap) :
    RunsInside u.length (readLength u u.length m) pairs (Santiago.readLength u u.length m)
      pairs := by
  rw [readLength, sub_eq hm.le (by omega), add_eq (by omega), add_eq (by omega),
    add_eq (by omega), add_eq (by omega)]
  refine (runsInside_emit (e := .read m) hm pairs).bind ?_
  by_cases htop : byteAt u m >>> 7 ≠ 0
  · rw [if_pos htop]
    refine (runsInside_emit (e := .remaining m) hm.le pairs).bind ?_
    by_cases hfour : u.length - m < 4
    · rw [if_pos hfour, Santiago.readLength, if_pos htop, if_pos hfour]
      exact runsInside_pure _ _ pairs
    · have hread := Santiago.readLength.eq_1 u u.length m
      rw [if_pos htop, if_neg hfour] at hread
      rw [if_neg hfour, hread]
      refine (runsInside_emits ?_ pairs).bind ?_
      · simp only [List.mem_cons, List.not_mem_nil, or_false, forall_eq_or_imp, forall_eq,
          Access.Inside]
        omega
      · have hlen := (readLength_bounds hm hread).1
        exact (runsInside_emit (e := .length _) hlen pairs).bind (runsInside_pure _ _ pairs)
  · have hread := Santiago.readLength.eq_1 u u.length m
    rw [if_neg htop] at hread
    rw [if_neg htop, hread]
    refine (runsInside_emits ?_ pairs).bind (runsInside_pure _ _ pairs)
    simp only [List.mem_cons, List.not_mem_nil, or_false, forall_eq_or_imp, forall_eq,
      Access.Inside]
    exact ⟨hm, (readLength_bounds hm hread).1⟩

/-- The map with the pair of a pass that read one. -/
def inserted (pairs : ParamsMap) : Option ((Bytes × Bytes) × Nat) → ParamsMap
  | none => pairs
  | some ((key, value), _) => pairs.insertIfNew key value

/-- Behind its two lengths a pass does what `parsePair` does there. -/
theorem runsInside_readPair {u : Bytes} {m nameLength valueLength : Nat} (hu : u.length < 2 ^ 32)
    (hm : m ≤ u.length) (hname : nameLength < 2 ^ 31) (hvalue : valueLength < 2 ^ 31)
    (pairs : ParamsMap) {r : Option ((Bytes × Bytes) × Nat)}
    (hr : r = if u.length - m < nameLength then none
      else if u.length - (m + nameLength) < valueLength then none
      else some (((u.drop m).take nameLength, (u.drop (m + nameLength)).take valueLength),
        m + nameLength + valueLength)) :
    RunsInside u.length (readPair u u.length m nameLength valueLength) pairs (r.map Prod.snd)
      (inserted pairs r) := by
  rw [readPair, sub_eq hm (by omega), add_eq (by omega)]
  refine (runsInside_emit (e := .remaining m) hm pairs).bind ?_
  by_cases hfits : u.length - m < nameLength
  · rw [if_pos hfits] at hr ⊢
    subst hr
    exact runsInside_pure _ _ pairs
  rw [if_neg hfits] at hr ⊢
  have hcopy : m + nameLength ≤ u.length := by omega
  refine (runsInside_emit (e := .copy m nameLength) hcopy pairs).bind ?_
  refine (runsInside_emit (e := .remaining (m + nameLength)) hcopy pairs).bind ?_
  rw [sub_eq hcopy (by omega), add_eq (by omega)]
  by_cases hfits' : u.length - (m + nameLength) < valueLength
  · rw [if_pos hfits'] at hr ⊢
    subst hr
    exact runsInside_pure _ _ pairs
  rw [if_neg hfits'] at hr ⊢
  subst hr
  have hcopy' : m + nameLength + valueLength ≤ u.length := by omega
  refine (runsInside_emit (e := .copy (m + nameLength) valueLength) hcopy' pairs).bind ?_
  exact ⟨[], rfl, by simp⟩

/-- A pass reads and inserts what `parsePair` reads. -/
theorem runsInside_pass {u : Bytes} {m : Nat} (hu : u.length < 2 ^ 32) (hm : m < u.length)
    (pairs : ParamsMap) :
    RunsInside u.length (pass u u.length m) pairs ((parsePair u u.length m).map Prod.snd)
      (inserted pairs (parsePair u u.length m)) := by
  rw [pass]
  refine (runsInside_readLength hu hm pairs).bind ?_
  cases hname : Santiago.readLength u u.length m with
  | none =>
      rw [parsePair, hname]
      exact runsInside_pure _ _ pairs
  | some r =>
      obtain ⟨nameLength, m₁⟩ := r
      obtain ⟨hname31, _, _⟩ := readLength_bounds hm hname
      by_cases hend : m₁ ≥ u.length
      · have hnone : parsePair u u.length m = none := by
          rw [parsePair, hname]
          exact if_pos hend
        rw [hnone]
        simp only [if_pos hend]
        exact runsInside_pure _ _ pairs
      simp only [if_neg hend]
      have hm₁ := Nat.lt_of_not_ge hend
      refine (runsInside_readLength hu hm₁ pairs).bind ?_
      cases hvalue : Santiago.readLength u u.length m₁ with
      | none =>
          have hnone : parsePair u u.length m = none := by
            rw [parsePair, hname]
            exact (if_neg hend).trans (by rw [hvalue]; rfl)
          rw [hnone]
          exact runsInside_pure _ _ pairs
      | some r =>
          obtain ⟨valueLength, m₂⟩ := r
          obtain ⟨hvalue31, _, hm₂⟩ := readLength_bounds hm₁ hvalue
          refine runsInside_readPair hu hm₂ hname31 hvalue31 pairs ?_
          rw [parsePair, hname]
          exact (if_neg hend).trans (by rw [hvalue]; rfl)

/-! ## The loop -/

/-- Every pass that goes on moves the position by at least two bytes, so more
passes than there are bytes left see the end of the loop. -/
theorem runsInside_loop {u : Bytes} {passes m : Nat} (hu : u.length < 2 ^ 32)
    (hpasses : u.length - m < passes) (pairs : ParamsMap) :
    RunsInside u.length (loop u u.length passes m) pairs true
      (parsePairsFrom passes u u.length m pairs) := by
  induction passes generalizing m pairs with
  | zero => exact absurd hpasses (Nat.not_lt_zero _)
  | succ passes ih =>
      rw [loop, parsePairsFrom]
      by_cases hm : m < u.length
      · rw [if_pos hm, if_pos hm]
        refine (runsInside_pass hu hm pairs).bind ?_
        cases hpair : parsePair u u.length m with
        | none => exact runsInside_pure _ _ pairs
        | some r =>
            obtain ⟨⟨key, value⟩, m'⟩ := r
            obtain ⟨enc, hp, _, rfl⟩ := exists_of_parsePair hm hpair
            have hpos := List.length_pos_of_ne_nil (delimits_pairForm.ne_nil _ _ hp)
            exact ih (by omega) _
      · rw [if_neg hm, if_neg hm]
        exact runsInside_pure _ _ pairs

/-- **`ParsePairs` stays inside its input.**  On every byte array of `n` bytes
the loop ends, nothing it does reaches outside, no subtraction wraps and no
length overflows; and the map it leaves is the one of `parsePairs`. -/
theorem parsePairs_inside {u : Bytes} {n : Nat} (hn : u.length = n) (hlt : n < 2 ^ 32)
    (pairs : ParamsMap) {passes : Nat} (hpasses : n < passes) :
    (loop u n passes 0 pairs).exit = .ret true ∧
      (∀ e ∈ (loop u n passes 0 pairs).events, e.Inside n) ∧
      (loop u n passes 0 pairs).state = parsePairs u n pairs := by
  subst hn
  obtain ⟨es, hrun, hes⟩ := runsInside_loop (m := 0) hlt (by omega) pairs
  obtain ⟨ps, rest, h⟩ := exists_splits delimits_pairForm (u.drop 0)
  rw [hrun]
  refine ⟨rfl, hes, ?_⟩
  rw [parsePairs, parsePairsFrom_splits pairs (by omega) h,
    parsePairsFrom_splits pairs (by omega) h]

/-- A name of one byte whose value is cut off. -/
theorem parsePairs_inside_cut :
    (loop [1, 2, 65, 66] 4 5 0 ∅).exit = .ret true ∧
      ∀ e ∈ (loop [1, 2, 65, 66] 4 5 0 ∅).events, e.Inside 4 := by
  obtain ⟨hexit, hinside, _⟩ :=
    @parsePairs_inside [1, 2, 65, 66] 4 rfl (by decide) ∅ 5 (by decide)
  exact ⟨hexit, hinside⟩

end Santiago.ParsePairs
