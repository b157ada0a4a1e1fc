import Beacon.Proofs.Sealing
import Beacon.Proofs.Tampering

/-!
# What is opened

The key stream added twice falls out again, so every buffer is the ciphertext of
just one message.  Whether the buffer is opened depends on the tag that a sender
would have put on that message: the receiver has to have been given the beginning
of it.

A receiver that is given something else leaves its buffer as it came.
-/

namespace Beacon.Eax

variable (key : Key) (nonce header : Bytes)

theorem crypt_crypt (data : Bytes) : crypt key nonce (crypt key nonce data) = data :=
  counterMode_counterMode key _ data

theorem encrypt_fst_eq_iff (message buffer : Bytes) (length : Nat) :
    (encrypt key nonce header message length).1 = buffer ↔ message = crypt key nonce buffer := by
  change crypt key nonce message = buffer ↔ _
  constructor
  · intro h
    rw [← h, crypt_crypt]
  · intro h
    rw [h, crypt_crypt]

/-- A full tag, whatever part of it is sent. -/
theorem encrypt_snd_crypt (buffer : Bytes) :
    (encrypt key nonce header (crypt key nonce buffer) tagLength).2 =
      (tag key nonce header buffer).toList := by
  have htag := tag_sealing key nonce header (crypt key nonce buffer)
  rwa [crypt_crypt] at htag

theorem improper_iff (given : Bytes) :
    given = [] ∨ tagLength < given.length ↔ ¬(1 ≤ given.length ∧ given.length ≤ tagLength) := by
  rw [← List.length_eq_zero_iff]
  omega

theorem openInPlace_of_length {given : Bytes} (hlength : given = [] ∨ tagLength < given.length)
    (buffer : Bytes) :
    openInPlace key nonce header given buffer = ⟨.error .invalidLength, buffer, []⟩ := by
  rw [openInPlace_eq, decrypt, if_pos hlength]
  rfl

theorem openInPlace_of_tag {given buffer : Bytes}
    (hlength : 1 ≤ given.length ∧ given.length ≤ tagLength)
    (htag : given = (tag key nonce header buffer).toList.take given.length) :
    openInPlace key nonce header given buffer = ⟨.ok (), crypt key nonce buffer, []⟩ := by
  rw [openInPlace_eq, decrypt, if_neg fun h => (improper_iff given).mp h hlength,
    if_pos htag.symm]
  rfl

theorem openInPlace_of_tag_ne {given buffer : Bytes}
    (hlength : 1 ≤ given.length ∧ given.length ≤ tagLength)
    (htag : given ≠ (tag key nonce header buffer).toList.take given.length) :
    openInPlace key nonce header given buffer = ⟨.error .authenticationFailed, buffer, []⟩ := by
  rw [openInPlace_eq, decrypt, if_neg fun h => (improper_iff given).mp h hlength,
    if_neg htag.symm]
  rfl

/-- The message comes back out of what was sealed. -/
theorem openInPlace_encrypt (message : Bytes) {length : Nat} (hpos : 1 ≤ length)
    (hlength : length ≤ tagLength) :
    openInPlace key nonce header (encrypt key nonce header message length).2
      (encrypt key nonce header message length).1 = ⟨.ok (), message, []⟩ := by
  rw [openInPlace_eq, decrypt_encrypt key nonce header message hpos hlength]
  rfl

/-- A message sealed under a tag of any proper length is opened again.  Every buffer has just one
plaintext; it is opened if and only if the tag is a part, from the start, of the one that goes with
that plaintext, and otherwise the receiver is told what was wrong and finds its buffer as it was. -/
theorem opens_exactly_sealed :
    (∀ (message : Bytes) (length : Nat), 1 ≤ length → length ≤ tagLength →
      openInPlace key nonce header (encrypt key nonce header message length).2
        (encrypt key nonce header message length).1 = ⟨.ok (), message, []⟩) ∧
    ∀ buffer given : Bytes, ∃ plain,
      (∀ message, (encrypt key nonce header message tagLength).1 = buffer ↔ message = plain) ∧
      ((openInPlace key nonce header given buffer).value = .ok () ↔
        1 ≤ given.length ∧ given.length ≤ tagLength ∧
          given = (encrypt key nonce header plain tagLength).2.take given.length) ∧
      ((openInPlace key nonce header given buffer).value = .error .invalidLength ↔
        given = [] ∨ tagLength < given.length) ∧
      ((openInPlace key nonce header given buffer).value = .error .authenticationFailed ↔
        1 ≤ given.length ∧ given.length ≤ tagLength ∧
          given ≠ (encrypt key nonce header plain tagLength).2.take given.length) ∧
      (openInPlace key nonce header given buffer).state =
        if (openInPlace key nonce header given buffer).value = .ok () then plain else buffer := by
  refine ⟨fun message length => openInPlace_encrypt key nonce header message,
    fun buffer given => ⟨crypt key nonce buffer,
      fun message => encrypt_fst_eq_iff key nonce header message buffer tagLength, ?_⟩⟩
  rw [encrypt_snd_crypt]
  by_cases hlength : 1 ≤ given.length ∧ given.length ≤ tagLength
  · have hproper : ¬(given = [] ∨ tagLength < given.length) :=
      fun h => (improper_iff given).mp h hlength
    by_cases htag : given = (tag key nonce header buffer).toList.take given.length
    · rw [openInPlace_of_tag key nonce header hlength htag]
      simp [hlength, hproper, ← htag]
    · rw [openInPlace_of_tag_ne key nonce header hlength htag]
      simp [hlength, hproper, htag]
  · have himproper := (improper_iff given).mpr hlength
    rw [openInPlace_of_length key nonce header himproper]
    simp [himproper, ← and_assoc, hlength]

/-- Forty bytes under a tag of three, in three blocks of which the last one is short. -/
theorem opens_sealed_long :
    openInPlace (Octets.zero 16) [7] [9]
        (encrypt (Octets.zero 16) [7] [9] (List.replicate 40 5) 3).2
        (encrypt (Octets.zero 16) [7] [9] (List.replicate 40 5) 3).1 =
      ⟨.ok (), List.replicate 40 5, []⟩ :=
  (opens_exactly_sealed (Octets.zero 16) [7] [9]).1 _ 3 (by decide) (by decide)

end Beacon.Eax
