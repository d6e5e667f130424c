import SplNet.Srv.BaseServer
import SplNet.Client.Answers
import SplNet.Java.Decimal

/-!
# The record of LOGSTAT

A record of statistics on its way from LOGSTAT to the client. LOGSTAT writes the number of posts
last and the number of following second, while `encode` and the client both read the posts second
and the following last; and `encode` returns its whole array of `1 << 16` bytes, of which the client
reads the first thirteen.

**No record makes the round trip** (`not_logstatRoundTrip`): the client shows the posts and the
following in each other's place, and 65523 bytes are left in front of the next message.
-/

namespace SplNet

open Java Client

/-- The statistics of a user. -/
structure Statistics where
  age : ℤ
  numOfPosts : ℤ
  numFollowers : ℤ
  numFollowing : ℤ
deriving DecidableEq

namespace Statistics

/-- The statistics that the branch computes for a user. -/
def ofUser (env : Surroundings) (s : Server) (r : UserRef) : Except JException Statistics := do
  let yearText ← substringFrom (s.user r).birthday 6
  let yearsToInt ← parseInt yearText
  return {
    age := (env.year - yearsToInt - 1).bmod 0x100000000
    numOfPosts := (s.user r).awaitingPosts.length
    numFollowers := (s.user r).following.toInt
    numFollowing := (s.user r).followers.length }

/-- All of them are shorts. -/
def InRange (x : Statistics) : Prop :=
  ∀ n ∈ [x.age, x.numOfPosts, x.numFollowers, x.numFollowing], -0x8000 ≤ n ∧ n < 0x8000

instance (x : Statistics) : Decidable x.InRange :=
  List.decidableBAll _ [x.age, x.numOfPosts, x.numFollowers, x.numFollowing]

end Statistics

/-- What the client shows for four numbers. -/
def shownRecord (age numOfPosts numOfFollowers numOfFollowing : ℤ) : List UInt8 :=
  ascii "ACK " ++ (ascii "07" ++ ascii " " ++ toDecimal age ++ ascii " " ++ toDecimal numOfPosts ++
    ascii " " ++ toDecimal numOfFollowers ++ ascii " " ++ toDecimal numOfFollowing)

/-- The message of LOGSTAT for the user is encoded, and the client reads exactly the bytes that are
sent and shows the statistics in their places. -/
def LogstatRoundTrip (env : Surroundings) (s : Server) (r : UserRef) (x : Statistics) : Prop :=
  ∃ message bytes, statMessage env s r = .ok message ∧ encode message = .ok bytes ∧
    ∀ flags rest, decoder flags (bytes ++ rest) =
      some (flags, shownRecord x.age x.numOfPosts x.numFollowers x.numFollowing, rest)

section Record

variable {env : Surroundings} {s : Server} {r : UserRef} {x : Statistics}

/-- The text behind `1007`. -/
def recordText (a b c d : ℤ) : JString :=
  decimal a ++ space :: (decimal b ++ space :: (decimal c ++ space :: decimal d))

/-- LOGSTAT writes the following second and the posts last. -/
theorem statMessage_of_statistics (h : Statistics.ofUser env s r = .ok x) :
    statMessage env s r =
      .ok (str "1007" ++ recordText x.age x.numFollowing x.numFollowers x.numOfPosts) := by
  rw [Statistics.ofUser] at h
  obtain ⟨yearText, hyear, h⟩ := bind_eq_ok.1 h
  obtain ⟨yearsToInt, hparse, h⟩ := bind_eq_ok.1 h
  obtain rfl := Except.ok.inj h
  rw [statMessage, hyear]
  show (parseInt yearText).bind _ = _
  rw [hparse]
  simp only [Except.bind, recordText, List.append_assoc, List.singleton_append]
  rfl

theorem newline_not_mem_recordText (a b c d : ℤ) : char '\n' ∉ recordText a b c d := by
  have hdecimal : ∀ n, char '\n' ∉ decimal n := not_mem_decimal (by decide) (by decide)
  have hspace : char '\n' ≠ space := by decide
  simp only [recordText, List.mem_append, List.mem_cons, hdecimal, hspace, or_self,
    not_false_eq_true]

theorem split_recordText (a b c d : ℤ) :
    split (recordText a b c d) space = [decimal a, decimal b, decimal c, decimal d] := by
  have hdecimal : ∀ n, space ∉ decimal n := not_mem_decimal (by decide) (by decide)
  exact split_four (hdecimal a) (hdecimal b) (hdecimal c) (hdecimal d) (decimal_ne_nil d)

/-- The numbers of a record, in the order in which they stand in the text. -/
theorem statBytes_recordText {a b c d : ℤ} (ha : -0x8000 ≤ a ∧ a < 0x8000)
    (hb : -0x8000 ≤ b ∧ b < 0x8000) (hc : -0x8000 ≤ c ∧ c < 0x8000)
    (hd : -0x8000 ≤ d ∧ d < 0x8000) :
    statBytes (recordText a b c d) =
      .ok (shortToBytes a ++ shortToBytes b ++ shortToBytes c ++ shortToBytes d) := by
  have hread : ∀ {n : ℤ}, -0x8000 ≤ n ∧ n < 0x8000 → parseShort (decimal n) = .ok n :=
    parseSigned_decimal
  simp only [statBytes, split_recordText, arrayGet, List.getElem?_cons_zero,
    List.getElem?_cons_succ, bind, Except.bind, hread ha, hread hb, hread hc, hread hd]
  rfl

/-- The bytes of a short are read back, also those of a negative one. -/
theorem bytesToShort_shortToBytes {n : ℤ} (h : -0x8000 ≤ n ∧ n < 0x8000) :
    bytesToShort (shortToBytes n) = n := by
  have hhighlt : (n / 0x100 % 0x100).toNat < 0x100 := by omega
  have hlowlt : (n % 0x100).toNat < 0x100 := by omega
  have hvalue : (((UInt8.ofNat (n / 0x100 % 0x100).toNat).toNat * 0x100 +
      (UInt8.ofNat (n % 0x100).toNat).toNat : ℕ) : ℤ) = n % ((0x10000 : ℕ) : ℤ) := by
    rw [UInt8.toNat_ofNat_of_lt' hhighlt, UInt8.toNat_ofNat_of_lt' hlowlt]
    omega
  have hbmod : n.bmod 0x10000 = n := Int.bmod_eq_of_le_mul_two (by omega) (by omega)
  calc bytesToShort (shortToBytes n)
      = (n % ((0x10000 : ℕ) : ℤ)).bmod 0x10000 := congrArg (fun m ↦ Int.bmod m 0x10000) hvalue
    _ = n.bmod 0x10000 := Int.emod_bmod n 0x10000
    _ = n := hbmod

/-- The bytes of a record, and the rest of the array. -/
theorem encode_recordText {a b c d : ℤ} (ha : -0x8000 ≤ a ∧ a < 0x8000)
    (hb : -0x8000 ≤ b ∧ b < 0x8000) (hc : -0x8000 ≤ c ∧ c < 0x8000)
    (hd : -0x8000 ≤ d ∧ d < 0x8000) :
    encode (str "1007" ++ recordText a b c d) =
      .ok (ascii "10" ++ (ascii "07" ++ (shortToBytes a ++ (shortToBytes b ++ (shortToBytes c ++
        (shortToBytes d ++ Decoder.semicolon :: List.replicate (statArrayLength - 13) 0)))))) := by
  have hlen : (str "1007" ++ recordText a b c d).length = 4 + (recordText a b c d).length := by
    rw [List.length_append]
    rfl
  have hsub : substring (str "1007" ++ recordText a b c d) 0 4 = .ok (str "1007") := by
    rw [substring, if_pos ⟨by omega, by omega, by omega⟩]
    rfl
  have hsplit : split ((str "1007" ++ recordText a b c d).drop 4) (char '\n') =
      [recordText a b c d] := if_neg (newline_not_mem_recordText a b c d)
  have hrecords : [recordText a b c d].mapM statBytes =
      .ok [shortToBytes a ++ shortToBytes b ++ shortToBytes c ++ shortToBytes d] := by
    rw [List.mapM_cons, statBytes_recordText ha hb hc hd]
    rfl
  have hwritten : ((str "1007").map (fun c : JChar ↦ UInt8.ofNat c.toNat) ++
      [shortToBytes a ++ shortToBytes b ++ shortToBytes c ++ shortToBytes d].flatten ++
        [0x3B]).length = 13 := rfl
  have hfits : 13 ≤ statArrayLength := by decide
  rw [encode, hsub]
  simp only [bind, Except.bind, true_or, if_true, hsplit, hrecords, hwritten, if_pos hfits]
  refine congrArg Except.ok ?_
  simp only [List.append_assoc, List.flatten_cons, List.flatten_nil, List.append_nil]
  rfl

/-- What the client reads of a record, and what it leaves. -/
theorem decoder_record {a b c d : ℤ} (ha : -0x8000 ≤ a ∧ a < 0x8000)
    (hb : -0x8000 ≤ b ∧ b < 0x8000) (hc : -0x8000 ≤ c ∧ c < 0x8000)
    (hd : -0x8000 ≤ d ∧ d < 0x8000) {bytes : List UInt8}
    (hbytes : encode (str "1007" ++ recordText a b c d) = .ok bytes) (flags : Flags)
    (rest : List UInt8) :
    decoder flags (bytes ++ rest) =
      some (flags, shownRecord a b c d, List.replicate (statArrayLength - 13) 0 ++ rest) := by
  rw [encode_recordText ha hb hc hd] at hbytes
  obtain rfl := Except.ok.inj hbytes
  simp only [List.append_assoc, List.cons_append]
  rw [decoder_statAck (.inl rfl) rfl rfl rfl rfl, bytesToShort_shortToBytes ha,
    bytesToShort_shortToBytes hb, bytesToShort_shortToBytes hc, bytesToShort_shortToBytes hd]
  rfl

/-- What the client shows of the statistics of a user, and what it leaves of the bytes. -/
theorem decoder_statMessage (h : Statistics.ofUser env s r = .ok x) (hrange : x.InRange) :
    ∃ message bytes, statMessage env s r = .ok message ∧ encode message = .ok bytes ∧
      ∀ flags rest, decoder flags (bytes ++ rest) =
        some (flags, shownRecord x.age x.numFollowing x.numFollowers x.numOfPosts,
          List.replicate (statArrayLength - 13) 0 ++ rest) := by
  have hage := hrange x.age (by simp)
  have hposts := hrange x.numOfPosts (by simp)
  have hfollowers := hrange x.numFollowers (by simp)
  have hfollowing := hrange x.numFollowing (by simp)
  have hencode := encode_recordText hage hfollowing hfollowers hposts
  exact ⟨_, _, statMessage_of_statistics h, hencode,
    fun flags rest ↦ decoder_record hage hfollowing hfollowers hposts hencode flags rest⟩

/-- A round trip leaves nothing. -/
theorem not_roundTrip_of_statistics (h : Statistics.ofUser env s r = .ok x) (hrange : x.InRange) :
    ¬ LogstatRoundTrip env s r x := by
  rintro ⟨message', bytes', hmessage', hencode', htrip⟩
  obtain ⟨message, bytes, hmessage, hencode, hread⟩ := decoder_statMessage h hrange
  obtain rfl := Except.ok.inj (hmessage.symm.trans hmessage')
  obtain rfl := Except.ok.inj (hencode.symm.trans hencode')
  have hrest := (hread ⟨false, false, false⟩ []).symm.trans (htrip ⟨false, false, false⟩ [])
  have hnil : List.replicate (statArrayLength - 13) (0 : UInt8) ++ [] = [] :=
    congrArg (fun x ↦ x.2.2) (Option.some.inj hrest)
  rw [List.append_nil, List.replicate_eq_nil_iff] at hnil
  exact absurd hnil (by decide)

/-- **No record of LOGSTAT makes the round trip.** The client shows the following in the place of
the posts and the posts in the place of the following, and leaves the rest of the array. -/
theorem not_logstatRoundTrip (h : Statistics.ofUser env s r = .ok x) (hrange : x.InRange) :
    (∃ message bytes, statMessage env s r = .ok message ∧ encode message = .ok bytes ∧
      ∀ flags rest, decoder flags (bytes ++ rest) =
        some (flags, shownRecord x.age x.numFollowing x.numFollowers x.numOfPosts,
          List.replicate (statArrayLength - 13) 0 ++ rest)) ∧
      ¬ LogstatRoundTrip env s r x :=
  ⟨decoder_statMessage h hrange, not_roundTrip_of_statistics h hrange⟩

end Record

/-- Alice, born in 1990, follows Bob. -/
def beforeLogstat : List Event :=
  [.accept, .accept, .frame 0 "01alice\x00a\x0001-01-1990\x00",
    .frame 1 "01bob\x00b\x0002-02-1990\x00", .frame 0 "02alice\x00a\x001", .frame 0 "040bob\x00"]

/-- The record of Alice: 31 years, one user that she follows. -/
theorem not_logstatRoundTrip_alice :
    (∃ message bytes,
      statMessage .listed ((serverMachine .threadPerClient).stateAfter beforeLogstat) 0 =
          .ok message ∧ encode message = .ok bytes ∧
        ∀ flags rest, decoder flags (bytes ++ rest) = some (flags, shownRecord 31 1 1 0,
          List.replicate (statArrayLength - 13) 0 ++ rest)) ∧
      ¬ LogstatRoundTrip .listed ((serverMachine .threadPerClient).stateAfter beforeLogstat) 0
        ⟨31, 0, 1, 1⟩ :=
  not_logstatRoundTrip (x := ⟨31, 0, 1, 1⟩) (by decide) (by decide)

/-- The statistics of Alice are what LOGSTAT computes, and they do not arrive. -/
theorem alice_not_roundTrip :
    Statistics.ofUser .listed ((serverMachine .threadPerClient).stateAfter beforeLogstat) 0 =
        .ok ⟨31, 0, 1, 1⟩ ∧
      (⟨31, 0, 1, 1⟩ : Statistics).InRange ∧
      ¬ LogstatRoundTrip .listed ((serverMachine .threadPerClient).stateAfter beforeLogstat) 0
        ⟨31, 0, 1, 1⟩ := by
  have hstatistics : Statistics.ofUser .listed
      ((serverMachine .threadPerClient).stateAfter beforeLogstat) 0 = .ok ⟨31, 0, 1, 1⟩ := by
    decide
  have hrange : (⟨31, 0, 1, 1⟩ : Statistics).InRange := by decide
  exact ⟨hstatistics, hrange, not_roundTrip_of_statistics hstatistics hrange⟩

end SplNet
