import Suika.Icmp

/-!
# Echo replies

What a peer makes of the answer to its echo request. `replyIcmp` takes over the request, rewrites
its type, and completes the sum again.

* Everything but the checksum is right for every request (`Echoes`).
* The checksum verifies except when the single fold of the new sum loses a carry
  (`echoReply_iff`). That the request verified does not help: its type and its checksum are no
  longer in the sum.
-/

namespace Suika

open Cpp BinaryPayload OnesComplement

/-! ## Messages as fields -/

/-- An echo message, as its fields. -/
def echoMessage (type code : UInt8) (checksum identifier sequenceNumber : UInt16) (d : Bytes) :
    Bytes :=
  [type, code] ++ be16 checksum ++ be16 identifier ++ be16 sequenceNumber ++ d

namespace IcmpDataEcho

section

variable (t c : UInt8) (cs i n : UInt16) (d : Bytes)

@[simp] theorem length_echoMessage : (echoMessage t c cs i n d).length = 8 + d.length := by
  simp only [echoMessage, List.length_append, List.length_cons, List.length_nil, length_be16]

@[simp] theorem type_echoMessage : type (echoMessage t c cs i n d) = .ok t := rfl

@[simp] theorem code_echoMessage : code (echoMessage t c cs i n d) = .ok c := rfl

@[simp] theorem identifier_echoMessage : identifier (echoMessage t c cs i n d) = .ok i :=
  congrArg Except.ok (join16_be16 i)

@[simp] theorem sequenceNumber_echoMessage : sequenceNumber (echoMessage t c cs i n d) = .ok n :=
  congrArg Except.ok (join16_be16 n)

@[simp] theorem drop_echoMessage : (echoMessage t c cs i n d).drop 8 = d := rfl

theorem wordSum_echoMessage :
    wordSum (echoMessage t c cs i n d) =
      t.toNat * 256 + c.toNat + cs.toNat + i.toNat + n.toNat + wordSum d := by
  rw [echoMessage, wordSum_append (by simp), wordSum_append (by simp), wordSum_append (by simp),
    wordSum_append (by simp), wordSum_cons_cons, wordSum_nil, wordSum_be16, wordSum_be16,
    wordSum_be16, Nat.add_zero]

end

/-- Every vector with room for the header is a message. -/
theorem exists_echoMessage {data : Bytes} (h : 8 ≤ data.length) :
    ∃ t c cs i n d, data = echoMessage t c cs i n d := by
  obtain ⟨front, d, hfront, rfl⟩ : ∃ front d : Bytes, front.length = 8 ∧ data = front ++ d :=
    ⟨data.take 8, data.drop 8, by simp [h], (List.take_append_drop 8 data).symm⟩
  match front, hfront with
  | [t, c, k₁, k₂, i₁, i₂, n₁, n₂], _ =>
    refine ⟨t, c, join16 k₁ k₂, join16 i₁ i₂, join16 n₁ n₂, d, ?_⟩
    simp [echoMessage, be16_join16]

end IcmpDataEcho

/-! ## Requests and replies -/

/-- A request the handler answers: an echo request of even size whose checksum verifies. -/
structure EchoRequest (request : Bytes) : Prop where
  header : 8 ≤ request.length
  even : request.length % 2 = 0
  fits : request.length ≤ 65515
  type : IcmpDataEcho.type request = .ok typeEcho
  accepted : verifyChecksum request 0 (intOfSize request.length) = .ok true

/-- A reply with everything of the request but its type and its checksum. -/
structure Echoes (request reply : Bytes) : Prop where
  length : reply.length = request.length
  type : IcmpDataEcho.type reply = .ok typeEchoReply
  code : IcmpDataEcho.code reply = IcmpDataEcho.code request
  identifier : IcmpDataEcho.identifier reply = IcmpDataEcho.identifier request
  sequenceNumber : IcmpDataEcho.sequenceNumber reply = IcmpDataEcho.sequenceNumber request
  data : reply.drop 8 = request.drop 8

/-- A reply the peer accepts: its checksum verifies as well. -/
structure EchoReply (request reply : Bytes) : Prop extends Echoes request reply where
  checksum : verifyChecksum reply 0 (intOfSize reply.length) = .ok true

/-- The handler answers `request` with `reply`: it calls `replyIcmp`, which gives this message to
`ipv4_output`. -/
structure AnswersWith (request reply : Bytes) : Prop where
  handle : ∀ (cfg : Config) (src dst : UInt32) (interface : IpNetworkInterface) (s : Stack),
    (IcmpHandler.handle cfg ⟨icmpType, request, src, dst, interface⟩).run s =
      (replyIcmp cfg request src interface).run s
  replyIcmp : ∀ (cfg : Config) (dst : UInt32) (interface : IpNetworkInterface),
    replyIcmp cfg request dst interface =
      (ipv4Output cfg icmpType reply interface.unicast dst >>= fun _ => pure 0)

/-- The sum of the words of a reply, its checksum apart: the code of the request, whose type has
become 0, and everything behind its checksum. -/
def echoSum (request : Bytes) : ℕ := (u8 request 1).toNat + wordSum (request.drop 4)

namespace IcmpHandler

variable {d : Bytes}

theorem echoSum_echoMessage (t c : UInt8) (cs i n : UInt16) (d : Bytes) :
    echoSum (echoMessage t c cs i n d) = c.toNat + i.toNat + n.toNat + wordSum d := by
  have hdrop : (echoMessage t c cs i n d).drop 4 = be16 i ++ be16 n ++ d := rfl
  rw [echoSum, hdrop, wordSum_append (by simp), wordSum_append (by simp), wordSum_be16,
    wordSum_be16]
  have hcode : u8 (echoMessage t c cs i n d) 1 = c := rfl
  rw [hcode]
  omega

/-- The reply is the request with another type and another checksum. -/
theorem replyBytes_echoMessage (t c : UInt8) (cs i n : UInt16) (d : Bytes) :
    replyBytes (echoMessage t c cs i n d) =
      echoMessage typeEchoReply c
        (~~~ UInt16.ofNat (fold16 (echoSum (echoMessage t c cs i n d)))) i n d := by
  have hzeroed : patch (patch (echoMessage t c cs i n d) 0 [typeEchoReply]) 2 (be16 0) =
      echoMessage typeEchoReply c 0 i n d := rfl
  have hsum : wordSum (echoMessage typeEchoReply c 0 i n d) =
      echoSum (echoMessage t c cs i n d) := by
    rw [IcmpDataEcho.wordSum_echoMessage, echoSum_echoMessage]
    simp
  rw [replyBytes, hzeroed, hsum]
  rfl

/-- Whatever the request, the reply echoes it. -/
theorem echoes_replyBytes (h8 : 8 ≤ d.length) : Echoes d (replyBytes d) := by
  obtain ⟨t, c, cs, i, n, d, rfl⟩ := IcmpDataEcho.exists_echoMessage h8
  rw [replyBytes_echoMessage]
  constructor <;> simp

/-- Whether the reply verifies. -/
theorem verifyChecksum_replyBytes (h8 : 8 ≤ d.length) (hev : d.length % 2 = 0)
    (hd : d.length ≤ 65515) :
    verifyChecksum (replyBytes d) 0 (intOfSize (replyBytes d).length) =
      .ok (decide (¬ CarryLost (echoSum d))) := by
  have hlen := length_replyBytes h8
  rw [verifyChecksum_all (by omega) (by omega)]
  obtain ⟨t, c, cs, i, n, d, rfl⟩ := IcmpDataEcho.exists_echoMessage h8
  rw [replyBytes_echoMessage]
  generalize hS : echoSum (echoMessage t c cs i n d) = S
  rw [echoSum_echoMessage] at hS
  have hbound : S < 2147483648 := by
    have hc := c.toNat_lt
    have hi := i.toNat_lt
    have hn := n.toNat_lt
    have hwords := wordSum_le d
    rw [IcmpDataEcho.length_echoMessage] at hd
    omega
  -- the complement completes the sum of the other words
  have hsum : wordSum (echoMessage typeEchoReply c (~~~ UInt16.ofNat (fold16 S)) i n d) =
      S + (65535 - fold16 S) := by
    rw [IcmpDataEcho.wordSum_echoMessage, toNat_not_fold16, ← hS]
    simp only [UInt8.toNat_zero]
    omega
  rw [hsum, decide_eq_decide.mpr (fold16_complement_iff hbound)]

/-- The handler answers every request with the message `replyBytes`. -/
theorem answersWith_replyBytes (h : EchoRequest d) : AnswersWith d (replyBytes d) := by
  obtain ⟨h8, hev, hd, htype, haccepted⟩ := h
  have hecho : u8 d 0 = typeEcho := by
    rw [IcmpDataEcho.type, readUint8_eq (by omega)] at htype
    exact Except.ok.inj htype
  have hfold : fold16 (wordSum d) = 65535 := by
    rw [verifyChecksum_all hev (by omega)] at haccepted
    exact of_decide_eq_true (Except.ok.inj haccepted)
  refine ⟨?_, fun cfg dst interface => replyIcmp_eq h8 hev hd⟩
  intro cfg src dst interface s
  rw [handle_eq h8 hev hd, if_neg (not_not.mpr hfold), if_pos hecho, replyIcmp_eq h8 hev hd]

end IcmpHandler

/-- **Echo replies.** Every request is answered, with a message that echoes it. This is a valid
reply exactly when the fold of its sum loses no carry. -/
theorem echoReply_iff {request : Bytes} (h : EchoRequest request) :
    ∃ reply, AnswersWith request reply ∧ Echoes request reply ∧
      (EchoReply request reply ↔ ¬ CarryLost (echoSum request)) := by
  have hechoes := IcmpHandler.echoes_replyBytes h.header
  refine ⟨IcmpHandler.replyBytes request, IcmpHandler.answersWith_replyBytes h, hechoes, ?_⟩
  have hverify := IcmpHandler.verifyChecksum_replyBytes h.header h.even h.fits
  refine ⟨?_, ?_⟩
  · intro hreply
    rw [hreply.checksum] at hverify
    exact of_decide_eq_true (Except.ok.inj hverify).symm
  · intro hkept
    rw [decide_eq_true hkept] at hverify
    exact ⟨hechoes, hverify⟩

/-- A request with identifier 1, sequence number 1 and no data. -/
theorem echoReply_iff_empty :
    ∃ reply, AnswersWith (echoMessage 8 0 0xF7FD 1 1 []) reply ∧
      Echoes (echoMessage 8 0 0xF7FD 1 1 []) reply ∧
      (EchoReply (echoMessage 8 0 0xF7FD 1 1 []) reply ↔
        ¬ CarryLost (echoSum (echoMessage 8 0 0xF7FD 1 1 []))) :=
  echoReply_iff ⟨by decide, by decide, by decide, rfl, by decide⟩

/-- A request whose reply has words that add up to `0x1ffff`. -/
def lostRequest : Bytes := echoMessage 8 0 0xF7FE 0xFFFF 0xFFFF [0, 1]

theorem lostRequest_echoRequest : EchoRequest lostRequest :=
  ⟨by decide, by decide, by decide, rfl, by decide⟩

/-- The request verifies, and the reply does not. -/
theorem not_forall_echoReply :
    ¬ ∀ request reply, EchoRequest request → AnswersWith request reply →
      EchoReply request reply := by
  intro h
  have hreply := h lostRequest (IcmpHandler.replyBytes lostRequest) lostRequest_echoRequest
    (IcmpHandler.answersWith_replyBytes lostRequest_echoRequest)
  have hverify := IcmpHandler.verifyChecksum_replyBytes (d := lostRequest) (by decide) (by decide)
    (by decide)
  rw [hreply.checksum] at hverify
  exact absurd (Except.ok.inj hverify) (by decide)

end Suika
