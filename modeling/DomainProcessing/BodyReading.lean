import Mathlib.Data.List.ModifyLast

namespace DomainProcessing

/-- `xs[:stop]` -/
def sliceTo {α : Type*} (xs : List α) (stop : Int) : List α :=
  if 0 ≤ stop then xs.take stop.toNat else xs.take (xs.length + stop).toNat

/-- What `_read_body_limited` returns, and how often it has asked for a chunk. -/
@[ext] structure BodyRead where
  body : List UInt8
  requests : Nat

/-- The loop of `_read_body_limited` over the chunks still to come; its last
request may be answered by their end. -/
def readLoop (limit : Nat) (chunks : List (List UInt8)) (totalSize requests : Nat) :
    List (List UInt8) → BodyRead
  | [] => ⟨chunks.flatten, requests + 1⟩
  | chunk :: rest =>
    let chunks := chunks ++ [chunk]
    let totalSize := totalSize + chunk.length
    if limit < totalSize then
      let stop : Int := limit - (totalSize - chunk.length)
      ⟨(chunks.modifyLast fun last => sliceTo last stop).flatten, requests + 1⟩
    else readLoop limit chunks totalSize (requests + 1) rest

def readBodyLimited (limit : Nat) (stream : List (List UInt8)) : BodyRead :=
  readLoop limit [] 0 0 stream

variable {limit totalSize requests : Nat} {chunk : List UInt8} {chunks stream : List (List UInt8)}

/-- The running total already counts the chunk that is cut. -/
theorem sliceTo_crossing (total : totalSize = chunks.flatten.length) (below : totalSize ≤ limit) :
    sliceTo chunk (limit - ((totalSize + chunk.length : Nat) - chunk.length)) =
      chunk.take (limit - chunks.flatten.length) := by
  have stop : (limit : Int) - ((totalSize + chunk.length : Nat) - chunk.length) =
      ((limit - chunks.flatten.length : Nat) : Int) := by omega
  rw [stop, sliceTo, if_pos (Int.natCast_nonneg _), Int.toNat_natCast]

theorem readLoop_body (total : totalSize = chunks.flatten.length) (below : totalSize ≤ limit) :
    (readLoop limit chunks totalSize requests stream).body =
      (chunks.flatten ++ stream.flatten).take limit := by
  induction stream generalizing chunks totalSize requests with
  | nil =>
    rw [readLoop, List.flatten_nil, List.append_nil, List.take_of_length_le (by omega)]
  | cons chunk rest ih =>
    have longer : totalSize + chunk.length = (chunks ++ [chunk]).flatten.length := by
      simp only [List.flatten_append, List.flatten_singleton, List.length_append, total]
    rw [readLoop]
    by_cases crossed : limit < totalSize + chunk.length
    · have cut : limit - chunks.flatten.length ≤ chunk.length := by omega
      have kept : chunks.flatten.take limit = chunks.flatten := List.take_of_length_le (by omega)
      simp only [if_pos crossed]
      rw [List.modifyLast_concat, sliceTo_crossing total below, List.flatten_append,
        List.flatten_singleton, List.flatten_cons, List.take_append, kept,
        List.take_append_of_le_length cut]
    · simp only [if_neg crossed]
      rw [ih longer (by omega), List.flatten_append, List.flatten_singleton, List.flatten_cons,
        List.append_assoc]

/-- The loop goes on to request number `k` as long as what arrived before it is
within the limit. -/
theorem readLoop_requests (chunks : List (List UInt8)) (requests : Nat) (below : totalSize ≤ limit)
    (k : Nat) :
    requests + k < (readLoop limit chunks totalSize requests stream).requests ↔
      k ≤ stream.length ∧ totalSize + (stream.take k).flatten.length ≤ limit := by
  induction stream generalizing chunks totalSize requests k with
  | nil =>
    simp only [readLoop, List.take_nil, List.flatten_nil, List.length_nil]
    omega
  | cons chunk rest ih =>
    rw [readLoop]
    by_cases crossed : limit < totalSize + chunk.length
    · simp only [if_pos crossed]
      cases k with
      | zero => simp [below]
      | succ k =>
        simp only [List.take_succ_cons, List.flatten_cons, List.length_append, List.length_cons]
        omega
    · have below' : totalSize + chunk.length ≤ limit := Nat.le_of_not_lt crossed
      simp only [if_neg crossed]
      cases k with
      | zero =>
        have next := (ih (chunks ++ [chunk]) (requests + 1) below' 0).mpr
          ⟨Nat.zero_le _, by simpa using below'⟩
        exact iff_of_true (by omega) ⟨Nat.zero_le _, by simpa using below⟩
      | succ k =>
        have later := ih (chunks ++ [chunk]) (requests + 1) below' k
        rw [Nat.add_assoc, Nat.add_comm 1 k] at later
        rw [later, List.take_succ_cons, List.flatten_cons, List.length_append, List.length_cons,
          Nat.add_le_add_iff_right, Nat.add_assoc]

theorem readBodyLimited_body (limit : Nat) (stream : List (List UInt8)) :
    (readBodyLimited limit stream).body = stream.flatten.take limit :=
  readLoop_body rfl (Nat.zero_le limit)

theorem readBodyLimited_requests (limit : Nat) (stream : List (List UInt8)) (k : Nat) :
    k < (readBodyLimited limit stream).requests ↔
      k ≤ stream.length ∧ (stream.take k).flatten.length ≤ limit := by
  have asked : 0 + k < (readBodyLimited limit stream).requests ↔
      k ≤ stream.length ∧ 0 + (stream.take k).flatten.length ≤ limit :=
    readLoop_requests [] 0 (Nat.zero_le limit) k
  rw [Nat.zero_add, Nat.zero_add] at asked
  exact asked

/-- The body is the first bytes of the stream up to the limit, and chunk number
`k` is asked for exactly while no more than the limit has arrived. -/
theorem readBodyLimited_reads (limit : Nat) (stream : List (List UInt8)) :
    (readBodyLimited limit stream).body = stream.flatten.take limit ∧
      (readBodyLimited limit stream).body.length = min limit stream.flatten.length ∧
      ∀ k, k < (readBodyLimited limit stream).requests ↔
        k ≤ stream.length ∧ (stream.take k).flatten.length ≤ limit := by
  have body := readBodyLimited_body limit stream
  exact ⟨body, by rw [body, List.length_take], readBodyLimited_requests limit stream⟩

/-- What comes after the limit has been crossed plays no part, so that a stream
that never ends is read like its first chunks. -/
theorem readBodyLimited_append {first : List (List UInt8)} (crossed : limit < first.flatten.length)
    (rest : List (List UInt8)) :
    readBodyLimited limit (first ++ rest) = readBodyLimited limit first := by
  have body : (readBodyLimited limit (first ++ rest)).body = (readBodyLimited limit first).body := by
    rw [readBodyLimited_body, readBodyLimited_body, List.flatten_append,
      List.take_append_of_le_length (Nat.le_of_lt crossed)]
  have within : ∀ k, k < (readBodyLimited limit (first ++ rest)).requests ↔
      k < (readBodyLimited limit first).requests := by
    intro k
    rw [readBodyLimited_requests, readBodyLimited_requests]
    by_cases early : k ≤ first.length
    · rw [List.take_append_of_le_length early, List.length_append]
      exact and_congr_left fun _ => iff_of_true (by omega) early
    · refine iff_of_false (fun asked => ?_) (fun asked => early asked.1)
      have late : first.length ≤ k := Nat.le_of_not_le early
      have arrived : ((first ++ rest).take k).flatten.length =
          first.flatten.length + (rest.take (k - first.length)).flatten.length := by
        rw [List.take_append, List.take_of_length_le late, List.flatten_append, List.length_append]
      have bound := asked.2
      omega
  have requests : (readBodyLimited limit (first ++ rest)).requests =
      (readBodyLimited limit first).requests :=
    Nat.le_antisymm (Nat.le_of_not_lt fun less => Nat.lt_irrefl _ ((within _).mp less))
      (Nat.le_of_not_lt fun less => Nat.lt_irrefl _ ((within _).mpr less))
  exact BodyRead.ext body requests

example : readBodyLimited 3 [[1, 2, 3], [], [4], [5]] = ⟨[1, 2, 3], 3⟩ := rfl

end DomainProcessing
