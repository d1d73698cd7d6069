import TsBat3.Daemon.Round

/-! # The retries of a round

A round takes samples until one arrives: up to `MAX_RETRIES` retries of
`getsample`, which itself tries up to `MAX_RETRIES` messages. The loop counts a
retry before it takes the next sample, so that the sample of the last retry arrives
with the counter at its limit and is taken for none.
-/

namespace TsBat3

/-- One try of `getsample`: the sample of a message, if it was read and decodes. -/
def attempt (msg : List Byte) : Option Bat3 :=
  if msg.length = 0 then none else decodemsg msg msg.length

/-- The first message that decodes is one of those that the last retry tries. -/
def LateSample (reads : List (List Byte)) : Prop :=
  (∀ msg ∈ reads.take (MAX_RETRIES * MAX_RETRIES), attempt msg = none) ∧
    ∃ msg ∈ (reads.drop (MAX_RETRIES * MAX_RETRIES)).take MAX_RETRIES, attempt msg ≠ none

/-- The return value tells whether a sample has arrived, and the sample is replaced by
the first that decodes or not at all. -/
structure Accounted {F : Type} (round : Round F) (reads : List (List Byte))
    (before after : Bat3) : Prop where
  ret : round.ret = 0 ↔ round.received ≠ none
  fresh : round.ret = 0 → reads.findSome? attempt = some after
  kept : round.ret ≠ 0 → round.ret = -1 ∧ after = before

/-- A loop of tries finds the first message that decodes among those it tries. -/
theorem getsampleLoop_eq (tries : Nat) (reads : List (List Byte)) :
    (getsampleLoop tries reads).1 = (reads.take tries).findSome? attempt ∧
      ((getsampleLoop tries reads).1 = none →
        (getsampleLoop tries reads).2 = reads.drop tries) := by
  induction tries generalizing reads with
  | zero => exact ⟨rfl, fun _ => rfl⟩
  | succ tries ih =>
      cases reads with
      | nil => exact ⟨rfl, fun _ => rfl⟩
      | cons msg reads =>
          rw [getsampleLoop, List.take_succ_cons, List.findSome?_cons, List.drop_succ_cons, attempt]
          by_cases empty : msg.length = 0
          · rw [if_pos empty, if_pos empty]
            exact ih reads
          · rw [if_neg empty, if_neg empty]
            cases decodemsg msg msg.length with
            | none => exact ih reads
            | some temp => exact ⟨rfl, fun none => nomatch none⟩

/-- The first message that decodes among the first messages is the first of all. -/
theorem findSome?_take_of_some {reads : List (List Byte)} {count : Nat} {sample : Bat3}
    (found : (reads.take count).findSome? attempt = some sample) :
    reads.findSome? attempt = some sample := by
  rw [← List.take_append_drop count reads, List.findSome?_append, found]
  rfl

/-- What the retries find, and whether they find it before the counter is at its
limit. -/
theorem retryLoop_eq (retries : Nat) (reads : List (List Byte)) :
    (retryLoop retries reads).2 = (reads.take ((retries + 1) * MAX_RETRIES)).findSome? attempt ∧
      ((retryLoop retries reads).1 < retries ↔
        (reads.take (retries * MAX_RETRIES)).findSome? attempt ≠ none) := by
  induction retries generalizing reads with
  | zero =>
      rw [retryLoop, Nat.zero_add, Nat.one_mul, Nat.zero_mul]
      exact ⟨(getsampleLoop_eq MAX_RETRIES reads).1,
        fun less => absurd less (Nat.lt_irrefl 0), fun found => absurd rfl found⟩
  | succ retries ih =>
      obtain ⟨first, rest⟩ := getsampleLoop_eq MAX_RETRIES reads
      have split (count : Nat) : reads.take ((count + 1) * MAX_RETRIES) =
          reads.take MAX_RETRIES ++ (reads.drop MAX_RETRIES).take (count * MAX_RETRIES) := by
        rw [Nat.succ_mul, Nat.add_comm, List.take_add]
      rw [split (retries + 1), split retries, List.findSome?_append, List.findSome?_append, ← first]
      unfold retryLoop getsample
      cases found : getsampleLoop MAX_RETRIES reads with
      | mk sample left =>
          cases sample with
          | some sample =>
              exact ⟨rfl, ⟨fun _ => Option.some_ne_none sample, fun _ => Nat.succ_pos retries⟩⟩
          | none =>
              rw [found] at rest
              have left : left = reads.drop MAX_RETRIES := rest rfl
              rw [left]
              obtain ⟨sample, count⟩ := ih (reads.drop MAX_RETRIES)
              exact ⟨sample, Nat.succ_lt_succ_iff.trans count⟩

section Retries

variable {F : Type}

/-- A round succeeds when one of the messages decodes that are tried before the counter
is at its limit. -/
theorem ret_doRound_iff (ar : Arith F) (now : Clock) (msg : List Byte)
    (reads : List (List Byte)) (sample : Bat3) (params : Action F) :
    (doRound ar now msg reads sample params).1.ret = 0 ↔
      ∃ reply ∈ reads.take (MAX_RETRIES * MAX_RETRIES), attempt reply ≠ none := by
  have early := (retryLoop_eq MAX_RETRIES reads).2
  rw [Ne, List.findSome?_eq_none_iff] at early
  simp only [not_forall, exists_prop] at early
  unfold doRound
  dsimp only
  by_cases limit : (retryLoop MAX_RETRIES reads).1 ≥ MAX_RETRIES
  · rw [if_pos limit]
    exact ⟨fun zero => absurd zero (show (-1 : Int) ≠ 0 by decide),
      fun found => absurd (early.mpr found) (not_lt.mpr limit)⟩
  · rw [if_neg limit]
    exact ⟨fun _ => early.mp (not_le.mp limit), fun _ => rfl⟩

/-- **The retries are accounted for** exactly when the first message that decodes is
not one of those that the last retry tries. -/
theorem retries_accounted_iff (ar : Arith F) (now : Clock) (msg : List Byte)
    (reads : List (List Byte)) (sample : Bat3) (params : Action F) :
    Accounted (doRound ar now msg reads sample params).1 reads sample
        (doRound ar now msg reads sample params).2 ↔ ¬ LateSample reads := by
  obtain ⟨found, early⟩ := retryLoop_eq MAX_RETRIES reads
  have split : reads.take ((MAX_RETRIES + 1) * MAX_RETRIES) =
      reads.take (MAX_RETRIES * MAX_RETRIES) ++
        (reads.drop (MAX_RETRIES * MAX_RETRIES)).take MAX_RETRIES := by
    rw [Nat.succ_mul, List.take_add]
  have late : LateSample reads ↔ ¬ (retryLoop MAX_RETRIES reads).1 < MAX_RETRIES ∧
      (retryLoop MAX_RETRIES reads).2 ≠ none := by
    rw [early, not_not, found, split, List.findSome?_append]
    unfold LateSample
    rw [← List.findSome?_eq_none_iff]
    refine and_congr_right fun nothing => ?_
    rw [nothing, Option.none_or, Ne, List.findSome?_eq_none_iff]
    simp only [not_forall, exists_prop, ne_eq]
  rw [late]
  unfold doRound
  dsimp only
  by_cases limit : (retryLoop MAX_RETRIES reads).1 ≥ MAX_RETRIES
  · rw [if_pos limit]
    have failed : (-1 : Int) ≠ 0 := by decide
    have last : ¬ (retryLoop MAX_RETRIES reads).1 < MAX_RETRIES := not_lt.mpr limit
    constructor
    · rintro accounted ⟨_, received⟩
      exact failed (accounted.ret.mpr received)
    · intro lost
      have nothing : (retryLoop MAX_RETRIES reads).2 = none := by
        by_contra received
        exact lost ⟨last, received⟩
      exact ⟨⟨fun zero => absurd zero failed, fun received => absurd nothing received⟩,
        fun zero => absurd zero failed, fun _ => ⟨rfl, rfl⟩⟩
  · rw [if_neg limit]
    have before := early.mp (not_le.mp limit)
    obtain ⟨reply, first⟩ := Option.ne_none_iff_exists'.mp before
    have received : (retryLoop MAX_RETRIES reads).2 = some reply := by
      rw [found, split, List.findSome?_append, first]
      rfl
    rw [received]
    exact ⟨fun _ lost => lost.1 (not_le.mp limit), fun _ =>
      ⟨⟨fun _ => Option.some_ne_none reply, fun _ => rfl⟩,
        fun _ => findSome?_take_of_some first, fun failed => absurd rfl failed⟩⟩

end Retries

/-- A device that answers only the sixth `getsample` is not heard. -/
theorem late_sample_lost :
    ¬ ∀ (now : Clock) (msg : List Byte) (reads : List (List Byte)) (sample : Bat3)
      (params : Action ℚ), Accounted (doRound Arith.exact now msg reads sample params).1 reads
        sample (doRound Arith.exact now msg reads sample params).2 := by
  intro accounted
  have accounted := accounted (.still 0) [] (List.replicate 25 [] ++ [List.replicate 18 0]) .blank
    (startParams 0 [])
  exact absurd (accounted.ret.mpr (by decide +kernel)) (by decide +kernel)

end TsBat3
