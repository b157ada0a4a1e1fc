import Beacon.Proofs.BlockCipher
import Beacon.Proofs.PublishedMode

/-!
# What was tampered with is not opened

A key encrypts no two blocks to the same one.  So two byte strings that differ in
one block take the authentication code to two different values there, and equal
blocks after it keep them apart.

The tag is the sum of three codes.  If just one of the three changes, so does the
tag, and the receiver leaves its buffer as it came.
-/

namespace Beacon

namespace Bytes

theorem octets_inj {n : Nat} {a b : Bytes} (ha : a.length ≤ n) (hlength : a.length = b.length)
    (h : octets n a = octets n b) : a = b := by
  apply List.ext_getElem hlength
  intro i hi hi'
  have hbyte := congrArg (fun v => v[i]?) h
  simpa [octets, Nat.lt_of_lt_of_le hi ha, hi, hi'] using hbyte

/-- As many bytes as before, some of them others, and all of these in one block of sixteen. -/
structure DifferInBlock (a b : Bytes) : Prop where
  length_eq : a.length = b.length
  ne : a ≠ b
  elsewhere : ∃ block, ∀ i, i / 16 ≠ block → a[i]? = b[i]?

namespace DifferInBlock

variable {a b : Bytes}

theorem ne_nil (h : DifferInBlock a b) : a ≠ [] ∧ b ≠ [] := by
  constructor
  · rintro rfl
    exact h.ne (List.length_eq_zero_iff.mp h.length_eq.symm).symm
  · rintro rfl
    exact h.ne (List.length_eq_zero_iff.mp h.length_eq)

/-- Either all that differs is in the first block, or all of it comes later. -/
theorem first_or_later (h : DifferInBlock a b) :
    (a.take 16 ≠ b.take 16 ∧ a.drop 16 = b.drop 16) ∨
      (a.take 16 = b.take 16 ∧ DifferInBlock (a.drop 16) (b.drop 16)) := by
  obtain ⟨block, hblock⟩ := h.elsewhere
  have hsplit (htake : a.take 16 = b.take 16) : a.drop 16 ≠ b.drop 16 := by
    intro hdrop
    apply h.ne
    rw [← List.take_append_drop 16 a, htake, hdrop, List.take_append_drop]
  cases block with
  | zero =>
      have hdrop : a.drop 16 = b.drop 16 := by
        apply List.ext_getElem?
        intro i
        rw [List.getElem?_drop, List.getElem?_drop]
        exact hblock (16 + i) (by omega)
      exact .inl ⟨fun htake => hsplit htake hdrop, hdrop⟩
  | succ block =>
      have htake : a.take 16 = b.take 16 := by
        apply List.ext_getElem?
        intro i
        rw [List.getElem?_take, List.getElem?_take]
        split
        next hi => exact hblock i (by omega)
        next => rfl
      refine .inr ⟨htake, ?_, hsplit htake, block, fun i hi => ?_⟩
      · rw [List.length_drop, List.length_drop, h.length_eq]
      · rw [List.getElem?_drop, List.getElem?_drop]
        exact hblock (16 + i) (by omega)

end DifferInBlock

end Bytes

namespace Eax

variable (key : Key)

/-! ## Codes that differ -/

theorem finalBlock_inj {a b : Bytes} (ha : a.length ≤ 16) (hlength : a.length = b.length)
    (h : finalBlock key a = finalBlock key b) : a = b := by
  rw [finalBlock, finalBlock, ← hlength] at h
  by_cases hfull : a.length = 16
  · rw [if_pos hfull, if_pos hfull] at h
    exact Bytes.octets_inj ha hlength (Octets.xor_right_cancel h)
  · rw [if_neg hfull, if_neg hfull] at h
    have hpadded : a ++ [0x80] = b ++ [0x80] :=
      Bytes.octets_inj (by rw [List.length_append, List.length_singleton]; omega)
        (by rw [List.length_append, List.length_append, hlength]) (Octets.xor_right_cancel h)
    exact List.append_cancel_right hpadded

/-- Codes that differ are not brought together by the same data. -/
theorem chain_inj {x y : Block} {data : Bytes} (h : chain key x data = chain key y data) :
    x = y := by
  induction x, data using chain.induct key generalizing y with
  | case1 x data hlast =>
      rw [chain_of_le key hlast, chain_of_le key hlast] at h
      exact Octets.xor_right_cancel (Aes.encrypt_injective key h)
  | case2 x data hmore ih =>
      rw [chain_of_lt key (Nat.lt_of_not_le hmore), chain_of_lt key (Nat.lt_of_not_le hmore)] at h
      exact Octets.xor_right_cancel (Aes.encrypt_injective key (ih h))

theorem chain_ne {a b : Bytes} (h : Bytes.DifferInBlock a b) (x : Block) :
    chain key x a ≠ chain key x b := by
  induction x, a using chain.induct key generalizing b with
  | case1 x a hlast =>
      intro heq
      rw [chain_of_le key hlast, chain_of_le key (h.length_eq ▸ hlast)] at heq
      have hfinal := Octets.xor_left_cancel (Aes.encrypt_injective key heq)
      exact h.ne (finalBlock_inj key hlast h.length_eq hfinal)
  | case2 x a hmore ih =>
      have ha : 16 < a.length := Nat.lt_of_not_le hmore
      have hb : 16 < b.length := h.length_eq ▸ ha
      rw [chain_of_lt key ha, chain_of_lt key hb]
      cases h.first_or_later with
      | inl hfirst =>
          intro heq
          rw [hfirst.2] at heq
          have hblock := Octets.xor_left_cancel (Aes.encrypt_injective key (chain_inj key heq))
          rw [← Bytes.octets_take, ← Bytes.octets_take 16 b] at hblock
          have hlength : (a.take 16).length = (b.take 16).length := by
            rw [List.length_take, List.length_take, h.length_eq]
          exact hfirst.1 (Bytes.octets_inj (List.length_take_le 16 a) hlength hblock)
      | inr hlater =>
          rw [← Bytes.octets_take 16 b, ← hlater.1, Bytes.octets_take]
          exact ih hlater.2

theorem code_ne {a b : Bytes} (h : Bytes.DifferInBlock a b) (tweak : UInt8) :
    code key tweak a ≠ code key tweak b := by
  rw [code, code, if_neg h.ne_nil.1, if_neg h.ne_nil.2]
  exact chain_ne key h _

/-! ## Opening in place -/

/-- The buffer ends with the message, and without one it stays as it came. -/
theorem openInPlace_eq (nonce header given buffer : Bytes) :
    openInPlace key nonce header given buffer =
      ⟨(decrypt key nonce header buffer given).map fun _ => (),
        (decrypt key nonce header buffer given).toOption.getD buffer, []⟩ := by
  rw [openInPlace, decrypt, Act.bind_apply, Act.get_apply, Done.after_nil]
  by_cases hlength : given = [] ∨ tagLength < given.length
  · rw [if_pos hlength, if_pos hlength]
    rfl
  · rw [if_neg hlength, if_neg hlength]
    by_cases htag : (tag key nonce header buffer).toList.take given.length = given
    · rw [if_pos htag, if_pos htag]
      rfl
    · rw [if_neg htag, if_neg htag]
      rfl

/-- A full tag that is not that of the data is refused. -/
theorem decrypt_of_tag_ne {nonce header ciphertext given : Bytes} (hlength : given.length = 16)
    (h : (tag key nonce header ciphertext).toList ≠ given) :
    decrypt key nonce header ciphertext given = .error .authenticationFailed := by
  have hproper : ¬(given = [] ∨ tagLength < given.length) := by
    rintro (rfl | hlong)
    · exact absurd hlength (by decide)
    · exact absurd hlong (by rw [hlength]; decide)
  have htake : (tag key nonce header ciphertext).toList.take given.length =
      (tag key nonce header ciphertext).toList :=
    List.take_of_length_le (Nat.le_of_eq (Vector.length_toList.trans hlength.symm))
  rw [decrypt, if_neg hproper, htake, if_neg h]

/-! ## Tampering -/

/-- What a receiver is given to open. -/
structure Sealed where
  nonce : Bytes
  header : Bytes
  ciphertext : Bytes
  tag : Bytes

/-- A message under its full tag. -/
def sealing (nonce header message : Bytes) : Sealed :=
  let sent := encrypt key nonce header message tagLength
  ⟨nonce, header, sent.1, sent.2⟩

theorem tag_sealing (nonce header message : Bytes) :
    (sealing key nonce header message).tag =
      (tag key nonce header (crypt key nonce message)).toList := by
  change ((tag key nonce header (crypt key nonce message)).toList ++ []).take tagLength = _
  rw [List.append_nil]
  exact List.take_of_length_le (Nat.le_of_eq Vector.length_toList)

/-- The tag is changed, or one of the rest is changed within one of its blocks. -/
inductive Tampered (sent : Sealed) : Sealed → Prop
  | tag {tag' : Bytes} (length_eq : tag'.length = sent.tag.length) (ne : tag' ≠ sent.tag) :
      Tampered sent { sent with tag := tag' }
  | nonce {nonce' : Bytes} (h : Bytes.DifferInBlock sent.nonce nonce') :
      Tampered sent { sent with nonce := nonce' }
  | header {header' : Bytes} (h : Bytes.DifferInBlock sent.header header') :
      Tampered sent { sent with header := header' }
  | ciphertext {ciphertext' : Bytes} (h : Bytes.DifferInBlock sent.ciphertext ciphertext') :
      Tampered sent { sent with ciphertext := ciphertext' }

theorem Tampered.length_tag {sent got : Sealed} (h : Tampered sent got) :
    got.tag.length = sent.tag.length := by
  cases h with
  | tag length_eq ne => exact length_eq
  | nonce h => rfl
  | header h => rfl
  | ciphertext h => rfl

/-- The tag that was sent is that of the data, and the tag that was received is not. -/
theorem Tampered.tag_ne {nonce header message : Bytes} {got : Sealed}
    (h : Tampered (sealing key nonce header message) got) :
    (Eax.tag key got.nonce got.header got.ciphertext).toList ≠ got.tag := by
  have hsent := tag_sealing key nonce header message
  cases h with
  | tag length_eq ne =>
      rw [hsent] at ne
      exact ne.symm
  | nonce h =>
      intro heq
      have hcodes := Vector.toList_inj.mp (heq.trans hsent)
      exact code_ne key h nonceTweak
        (Octets.xor_right_cancel (Octets.xor_right_cancel hcodes)).symm
  | header h =>
      intro heq
      have hcodes := Vector.toList_inj.mp (heq.trans hsent)
      exact code_ne key h headerTweak
        (Octets.xor_left_cancel (Octets.xor_right_cancel hcodes)).symm
  | ciphertext h =>
      intro heq
      have hcodes := Vector.toList_inj.mp (heq.trans hsent)
      exact code_ne key h ciphertextTweak (Octets.xor_left_cancel hcodes).symm

/-- What was tampered with fails to authenticate, and the buffer it was to be opened in still has
every byte as it was received. -/
theorem tampered_not_opened (nonce header message : Bytes) {got : Sealed}
    (h : Tampered (sealing key nonce header message) got) :
    openInPlace key got.nonce got.header got.tag got.ciphertext =
      ⟨.error .authenticationFailed, got.ciphertext, []⟩ := by
  have hlength : got.tag.length = 16 := by
    rw [h.length_tag, tag_sealing, Vector.length_toList]
  rw [openInPlace_eq, decrypt_of_tag_ne key hlength (h.tag_ne key)]
  rfl

/-- A header of two blocks, and the only byte of the second one was changed. -/
theorem tampered_header_not_opened :
    let sent := sealing (Octets.zero 16) [7] (List.replicate 17 0) [1, 2, 3]
    Tampered sent { sent with header := List.replicate 16 0 ++ [1] } ∧
      openInPlace (Octets.zero 16) [7] (List.replicate 16 0 ++ [1]) sent.tag sent.ciphertext =
        ⟨.error .authenticationFailed, sent.ciphertext, []⟩ := by
  intro sent
  have hheader : Bytes.DifferInBlock (List.replicate 17 0) (List.replicate 16 0 ++ [1]) := by
    refine ⟨rfl, by decide, 1, fun i hi => ?_⟩
    by_cases hfirst : i < 16
    · rw [List.getElem?_append_left (by simpa using hfirst), List.getElem?_replicate_of_lt hfirst,
        List.getElem?_replicate_of_lt (Nat.lt_succ_of_lt hfirst)]
    · have hout : 17 ≤ i := by
        omega
      rw [List.getElem?_eq_none (by simpa using hout), List.getElem?_eq_none (by simpa using hout)]
  have htampered : Tampered sent { sent with header := List.replicate 16 0 ++ [1] } :=
    .header hheader
  exact ⟨htampered, tampered_not_opened (Octets.zero 16) [7] _ [1, 2, 3] htampered⟩

end Eax

end Beacon
