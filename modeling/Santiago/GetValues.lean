import Santiago.Lib.Table
import Santiago.Pairs.Grammar
import Santiago.Connection.Steps
import Santiago.Writing

/-!
# Santiago.GetValues

The answer to a `FCGI_GET_VALUES` record.  Whatever the content of the query
is, one record goes back, and it names exactly those of the three values the
server knows that a complete pair of the query asks for.
-/

namespace Santiago

open Effect Bytes Std Delimited PacketSocket RecordSocket Connection

/-! ## The pairs of an answer -/

/-- The values the server has. -/
def serverValues : List (Bytes × Bytes) :=
  [(fcgiMaxConns, asciiBytes "100"), (fcgiMaxReqs, asciiBytes "1000"),
    (fcgiMpxsConns, asciiBytes "1")]

theorem getValue?_eq_some_iff {name value : Bytes} :
    getValue? name = some value ↔ (name, value) ∈ serverValues := by
  have hreqs : fcgiMaxReqs ≠ fcgiMaxConns := by decide
  have hmpxs : fcgiMpxsConns ≠ fcgiMaxConns ∧ fcgiMpxsConns ≠ fcgiMaxReqs := by decide
  rw [getValue?, serverValues]
  split
  · next h => simp [h, hreqs.symm, hmpxs.1.symm, eq_comm]
  split
  · next h => simp [h, hreqs, hmpxs.2.symm, eq_comm]
  split
  · next h => simp [h, hmpxs.1, hmpxs.2, eq_comm]
  · next h₁ h₂ h₃ => simp [h₁, h₂, h₃]

/-- The pairs that answer a query, in map order. -/
def answerPairs (pairs : ParamsMap) : List (Bytes × Bytes) :=
  pairs.toList.filterMap fun p => (getValue? p.1).map fun value => (p.1, value)

/-- The content of an answer is the encoding of its pairs. -/
theorem getValuesResult_eq (pairs : ParamsMap) :
    getValuesResult pairs = writePairs (answerPairs pairs) := by
  rw [getValuesResult, writePairs, answerPairs]
  generalize pairs.toList = ps
  generalize ([] : Bytes) = buffer
  induction ps generalizing buffer with
  | nil => rfl
  | cons p ps ih =>
      rw [List.foldl_cons, List.filterMap_cons]
      cases getValue? p.1 with
      | none => exact ih buffer
      | some value => exact ih (writePair buffer p.1 value)

theorem mem_answerPairs {pairs : ParamsMap} {name value : Bytes} :
    (name, value) ∈ answerPairs pairs ↔ name ∈ pairs ∧ (name, value) ∈ serverValues := by
  simp only [answerPairs, List.mem_filterMap, Option.map_eq_some_iff, Prod.mk.injEq,
    ExtTreeMap.mem_iff_isSome_getElem?, Option.isSome_iff_exists, ← getValue?_eq_some_iff]
  constructor
  · rintro ⟨⟨name', value'⟩, hmem, value'', hvalue, rfl, rfl⟩
    exact ⟨⟨value', ExtTreeMap.mem_toList_iff_getElem?_eq_some.mp hmem⟩, hvalue⟩
  · rintro ⟨⟨value', hmem⟩, hvalue⟩
    exact ⟨(name, value'), ExtTreeMap.mem_toList_iff_getElem?_eq_some.mpr hmem,
      value, hvalue, rfl,
      rfl⟩

/-- The map has no name twice, so the answer has none. -/
theorem nodup_answerPairs (pairs : ParamsMap) : ((answerPairs pairs).map Prod.fst).Nodup := by
  have hkeys : List.Sublist ((answerPairs pairs).map Prod.fst) (pairs.toList.map Prod.fst) := by
    rw [answerPairs]
    generalize pairs.toList = ps
    induction ps with
    | nil => exact .slnil
    | cons p ps ih =>
        rw [List.filterMap_cons]
        cases getValue? p.1 with
        | none => exact ih.cons _
        | some value => exact ih.cons_cons _
  refine hkeys.nodup ?_
  rw [ExtTreeMap.map_fst_toList_eq_keys]
  exact ExtTreeMap.nodup_keys

theorem countable_answerPairs {pairs : ParamsMap} {p : Bytes × Bytes}
    (h : p ∈ answerPairs pairs) : Countable p := by
  have hall : ∀ p ∈ serverValues, Countable p := by
    unfold Countable
    decide
  exact hall p (mem_answerPairs.mp h).2

/-- There are three names, and none is there twice. -/
theorem length_answerPairs_le (pairs : ParamsMap) : (answerPairs pairs).length ≤ 3 := by
  have hnodup : (answerPairs pairs).Nodup := (nodup_answerPairs pairs).of_map Prod.fst
  have hsub : answerPairs pairs ⊆ serverValues := fun p hp => (mem_answerPairs.mp hp).2
  exact (hnodup.subperm hsub).length_le

/-- An answer fits one record. -/
theorem length_getValuesResult_le (pairs : ParamsMap) :
    (getValuesResult pairs).length ≤ 0xffff := by
  have hpair : ∀ p ∈ serverValues, (writePair [] p.1 p.2).length ≤ 27 := by decide
  have hle : ∀ n ∈ (answerPairs pairs).map (fun p => (writePair [] p.1 p.2).length),
      n ≤ 27 := by
    intro n hn
    obtain ⟨p, hp, rfl⟩ := List.mem_map.mp hn
    exact hpair p (mem_answerPairs.mp hp).2
  have hsum := List.sum_le_card_nsmul _ 27 hle
  have hthree := length_answerPairs_le pairs
  rw [List.length_map, smul_eq_mul] at hsum
  rw [getValuesResult_eq, writePairs_eq_flatMap, List.length_flatMap]
  omega

/-! ## The answer -/

/-- A name is in the map that a query is read into when it is the name of one
of the query's complete pairs. -/
theorem mem_parsePairs_iff {content rest : Bytes} {query : List (Bytes × Bytes)}
    (h : Splits PairForm content query rest) {name : Bytes} :
    name ∈ parsePairs content content.length ∅ ↔ name ∈ query.map Prod.fst := by
  rw [ExtTreeMap.mem_iff_isSome_getElem?, parsePairs_splits ∅ h, getElem?_insertPairs]
  simp [List.lookup_isSome_iff]

/-- The answer, read back. -/
theorem getElem?_parsePairs_getValuesResult (pairs : ParamsMap) {name value : Bytes} :
    (parsePairs (getValuesResult pairs) (getValuesResult pairs).length ∅)[name]? = some value ↔
      name ∈ pairs ∧ (name, value) ∈ serverValues := by
  have hmany := many_writePairs fun _ => @countable_answerPairs pairs _
  rw [getValuesResult_eq, parsePairs_of_form (pairsForm_iff.mpr hmany), getElem?_insertPairs,
    ← mem_answerPairs, ← Table.lookup_eq_some_iff_mem (nodup_answerPairs pairs)]
  simp

/-- **`FCGI_GET_VALUES` is answered exactly.**  Whatever the query holds, one
record goes back on id 0; its content has no name twice, and read as pairs it
gives the server's values of the names that occur in complete pairs of the
query; and nothing else changes. -/
theorem getValues_answered {c : Connection} (hs : c.socket.state ≠ .closed)
    (htakes : c.socket.Takes 1) (r : Nat) (content : Bytes) :
    let out := recordSocket.handleNewPacket false r fcgiGetValues content c
    ∃ header body answer query rest,
      out.exit = .ret () ∧
      out.events = [.newPacket r fcgiGetValues content, .wrote header body] ∧
      header.type = fcgiGetValuesResult ∧ header.requestId = 0 ∧
      header.contentLength = body.length ∧
      Many PairForm answer body ∧ (answer.map Prod.fst).Nodup ∧
      Splits PairForm content query rest ∧
      (∀ name value : Bytes, (parsePairs body body.length ∅)[name]? = some value ↔
        name ∈ query.map Prod.fst ∧ (name, value) ∈ serverValues) ∧
      out.state.data = c.data ∧ out.state.state = c.state := by
  obtain ⟨query, rest, hquery⟩ := exists_splits delimits_pairForm content
  let pairs := parsePairs content content.length ∅
  have hrecord := bufferRecords_short 0 fcgiGetValuesResult (length_getValuesResult_le pairs)
  have hanswer := answer_of_takes (r := 0) (t := fcgiGetValuesResult)
    (b := getValuesResult pairs) hs (by rw [hrecord]; exact htakes)
  rw [hrecord] at hanswer
  have hrun : recordSocket.handleNewPacket false r fcgiGetValues content c =
      (recordSocket.answer 0 fcgiGetValuesResult (getValuesResult pairs) c).after
        [.newPacket r fcgiGetValues content] := rfl
  rw [hrun, hanswer]
  refine ⟨_, _, answerPairs pairs, query, rest, rfl, rfl, rfl, two_octets (by decide), ?_, ?_,
    nodup_answerPairs pairs, hquery, fun name value => ?_, rfl, rfl⟩
  · exact IsFragment.contentLength_eq
      (p := (fragmentHeader 0 fcgiGetValuesResult (getValuesResult pairs).length, _))
      ⟨rfl, length_getValuesResult_le pairs⟩
  · rw [getValuesResult_eq]
    exact many_writePairs fun _ => countable_answerPairs
  · rw [getElem?_parsePairs_getValuesResult, mem_parsePairs_iff hquery]

/-- A query for one of the names, with an unknown name before it, a value of
its own and a byte too many. -/
theorem getValues_answered_mpxs :
    let query := writePairs [([65], []), (fcgiMpxsConns, [48])] ++ [7]
    ∃ header body,
      (recordSocket.handleNewPacket false 0 fcgiGetValues query
          (Connection.init [] fun _ => 0)).events =
        [.newPacket 0 fcgiGetValues query, .wrote header body] ∧
      header.type = fcgiGetValuesResult := by
  have htakes : (Connection.init [] fun _ => 0).socket.Takes 1 := fun j _ m hm => by cases hm
  obtain ⟨header, body, _, _, _, _, hevents, htype, _⟩ :=
    getValues_answered (by decide) htakes 0 (writePairs [([65], []), (fcgiMpxsConns, [48])] ++ [7])
  exact ⟨header, body, hevents, htype⟩

end Santiago
