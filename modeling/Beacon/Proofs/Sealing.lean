import Beacon.Proofs.FrameCodec
import Beacon.Telemetry.Sealing

/-!
# What is sealed can be opened

The key stream of a nonce is added to a message block by block, so that adding it
once more gives the message back.  The tag is a function of nonce, header and
ciphertext, and both sides know those.
-/

namespace Beacon

namespace Bytes

theorem length_xor (a b : Bytes) : (xor a b).length = min a.length b.length := by
  simp [xor]

/-- Whatever is added twice falls out again. -/
theorem xor_xor {a b : Bytes} (h : a.length ≤ b.length) : xor (xor a b) b = a := by
  induction a generalizing b with
  | nil => rfl
  | cons x a ih =>
      cases b with
      | nil => simp at h
      | cons y b =>
          have htail : xor (xor a b) b = a := ih (Nat.le_of_succ_le_succ h)
          have hhead : x ^^^ y ^^^ y = x := by
            rw [UInt8.xor_assoc, UInt8.xor_self, UInt8.xor_zero]
          rw [xor, xor, List.zipWith_cons_cons, List.zipWith_cons_cons, hhead]
          exact congrArg (x :: ·) htail

end Bytes

namespace Eax

variable (key : Key)

/-- A short block is the last one. -/
theorem split_block {block rest : Bytes} (hblock : block.length ≤ 16)
    (hrest : block.length < 16 → rest = []) :
    (block ++ rest).take 16 = block ∧ (block ++ rest).drop 16 = rest := by
  cases Nat.lt_or_eq_of_le hblock with
  | inl hshort =>
      rw [hrest hshort, List.append_nil]
      exact ⟨List.take_of_length_le hblock, List.drop_of_length_le hblock⟩
  | inr hfull => exact ⟨List.take_left' hfull, List.drop_left' hfull⟩

theorem counterMode_nil (counter : Nat) : counterMode key counter [] = [] := by
  rw [counterMode, if_pos rfl]

theorem counterMode_of_ne_nil (counter : Nat) {data : Bytes} (h : data ≠ []) :
    counterMode key counter data =
      Bytes.xor (data.take 16) (Aes.encrypt key (.ofNat counter)).toList ++
        counterMode key (counter + 1) (data.drop 16) := by
  rw [counterMode, if_neg h]

theorem length_counterMode (counter : Nat) (data : Bytes) :
    (counterMode key counter data).length = data.length := by
  induction counter, data using counterMode.induct with
  | case1 counter => rw [counterMode_nil]
  | case2 counter data hdata ih =>
      rw [counterMode_of_ne_nil key counter hdata, List.length_append, ih, Bytes.length_xor,
        Vector.length_toList, List.length_take, List.length_drop]
      omega

theorem counterMode_counterMode (counter : Nat) (data : Bytes) :
    counterMode key counter (counterMode key counter data) = data := by
  induction counter, data using counterMode.induct with
  | case1 counter => rw [counterMode_nil, counterMode_nil]
  | case2 counter data hdata ih =>
      have hlength := length_counterMode key counter data
      have hcrypted : counterMode key counter data ≠ [] := by
        intro hnil
        rw [hnil] at hlength
        exact hdata (List.length_eq_zero_iff.mp hlength.symm)
      have hrest := length_counterMode key (counter + 1) (data.drop 16)
      have hblock := Bytes.length_xor (data.take 16) (Aes.encrypt key (.ofNat counter)).toList
      have hstream : (data.take 16).length ≤ (Aes.encrypt key (.ofNat counter)).toList.length := by
        rw [List.length_take, Vector.length_toList]
        omega
      rw [Nat.min_eq_left hstream, List.length_take] at hblock
      rw [List.length_drop] at hrest
      obtain ⟨htake, hdrop⟩ := split_block (hblock ▸ Nat.min_le_left 16 data.length) fun hshort =>
        List.length_eq_zero_iff.mp (hrest.trans (by omega))
      rw [counterMode_of_ne_nil key counter hcrypted, counterMode_of_ne_nil key counter hdata,
        htake, hdrop, ih, Bytes.xor_xor hstream, List.take_append_drop]

/-- A message is opened with any part of its tag. -/
theorem decrypt_encrypt (nonce header message : Bytes) {length : Nat} (hpos : 0 < length)
    (hlength : length ≤ tagLength) :
    decrypt key nonce header (encrypt key nonce header message length).1
      (encrypt key nonce header message length).2 = .ok message := by
  have hplain : crypt key nonce (crypt key nonce message) = message :=
    counterMode_counterMode key _ message
  have hpadding : length - tagLength = 0 := Nat.sub_eq_zero_of_le hlength
  have htag (tag : Block) : (tag.toList.take length).length = length := by
    rw [List.length_take, Vector.length_toList]
    exact Nat.min_eq_left hlength
  simp only [encrypt, hpadding, List.replicate_zero, List.append_nil]
  rw [decrypt, if_neg, htag, if_pos rfl, hplain]
  rw [htag, not_or]
  constructor
  · intro hnil
    have hzero := htag (tag key nonce header (crypt key nonce message))
    rw [hnil] at hzero
    exact absurd hzero (Nat.ne_of_lt hpos)
  · exact Nat.not_lt.mpr hlength

end Eax

/-- Telemetry is told to whoever has the key and knows the window. -/
theorem SealedTelemetry.decrypt_encrypt (t : Telemetry) (key : Key) (window : UInt32)
    (salt : Octets 2) : (t.encrypt key window salt).decrypt key window = .ok t := by
  let message := Eax.encrypt key (sealingNonce window salt) [] t.toBytes 2
  have hciphertext : (Bytes.octets 12 message.1).toList = message.1 :=
    Bytes.toList_octets ((Eax.length_counterMode key _ _).trans (Frame.length_telemetry t))
  have htag : (Bytes.octets 2 message.2).toList = message.2 :=
    Bytes.toList_octets (by simp [message, Eax.encrypt, Eax.tagLength])
  have hopened : Eax.decrypt key (sealingNonce window salt) [] message.1 message.2 =
      .ok t.toBytes :=
    Eax.decrypt_encrypt key _ _ _ (by decide) (by decide)
  change Telemetry.ofBytes <$> Eax.decrypt key (sealingNonce window salt) []
    (Bytes.octets 12 message.1).toList (Bytes.octets 2 message.2).toList = _
  rw [hciphertext, htag, hopened]
  exact congrArg Except.ok (Frame.telemetry_ofBytes_toBytes t)

end Beacon
