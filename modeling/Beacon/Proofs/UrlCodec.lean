import Beacon.Url
import Mathlib.Data.List.Basic
import Mathlib.Tactic.Common

/-!
# Web addresses expand again

What compression gives expands to the address that it was made from.  At every
place either a word of the table has been replaced by its code, which stands for
that word only, or a character stands for itself; no character that does is
small enough to be taken for a code.
-/

namespace Beacon

namespace Url

/-- A word that starts the text stands in the table under its code. -/
theorem startsWith?_eq_some {table : List (List Char)} {text rest : List Char} {code : Nat}
    (h : startsWith? table text = some (code, rest)) :
    ∃ word, table[code]? = some word ∧ text = word ++ rest := by
  obtain ⟨⟨word, n⟩, hmem, hmatch⟩ := List.exists_of_findSome?_eq_some h
  simp only [Option.map_eq_some_iff, Prod.mk.injEq] at hmatch
  obtain ⟨tail, hprefix, rfl, rfl⟩ := hmatch
  refine ⟨word, List.mem_zipIdx_iff_getElem?.mp hmem, ?_⟩
  exact (List.append_eq_of_isPrefixOf?_eq_some hprefix).symm

theorem expandByte_code {code : Nat} {word : List Char} (h : endings[code]? = some word) :
    expandByte (UInt8.ofNat code) = .ok word := by
  have hcode : code < 14 := (List.getElem?_eq_some_iff.mp h).1
  have hbyte : (UInt8.ofNat code).toNat = code :=
    UInt8.toNat_ofNat_of_lt' (Nat.lt_of_lt_of_le hcode (by decide))
  rw [expandByte, hbyte, h]

theorem expandByte_literal {c : Char} (h : isLiteral c.toNat) :
    expandByte (UInt8.ofNat c.toNat) = .ok [c] := by
  have hrange : 0x20 < c.toNat ∧ c.toNat < 0x7F := by
    simpa [isLiteral] using h
  have hbyte : (UInt8.ofNat c.toNat).toNat = c.toNat :=
    UInt8.toNat_ofNat_of_lt' (Nat.lt_of_lt_of_le hrange.2 (by decide))
  have hending : endings[c.toNat]? = none :=
    List.getElem?_eq_none (Nat.le_trans (by decide) hrange.1)
  rw [expandByte, hbyte, hending]
  simp only [h, if_true, Char.ofNat_toNat]

theorem compressBody_cons_eq_ok {room : Nat} {c : Char} {rest : List Char} {bytes : Bytes}
    (h : compressBody room (c :: rest) = .ok bytes) :
    ∃ room' byte text tail body,
      room = room' + 1 ∧ c :: rest = text ++ tail ∧ bytes = byte :: body ∧
        expandByte byte = .ok text ∧ compressBody room' tail = .ok body := by
  rw [compressBody.eq_def] at h
  simp only at h
  cases hword : startsWith? endings (c :: rest) with
  | some found =>
      obtain ⟨code, tail⟩ := found
      obtain ⟨word, hcode, htext⟩ := startsWith?_eq_some hword
      rw [hword] at h
      cases room with
      | zero => simp at h
      | succ room =>
          cases hbody : compressBody room tail with
          | error fault => simp [hbody] at h
          | ok body =>
              simp only [hbody] at h
              cases h
              exact ⟨room, _, word, tail, body, rfl, htext, rfl, expandByte_code hcode, hbody⟩
  | none =>
      rw [hword] at h
      by_cases hliteral : isLiteral c.toNat
      · simp only [hliteral, if_true] at h
        cases room with
        | zero => simp at h
        | succ room =>
            cases hbody : compressBody room rest with
            | error fault => simp [hbody] at h
            | ok body =>
                simp only [hbody] at h
                cases h
                exact ⟨room, _, [c], rest, body, rfl, rfl, rfl, expandByte_literal hliteral, hbody⟩
      · simp [hliteral] at h

theorem expandBody_compressBody {room : Nat} {text : List Char} {bytes : Bytes}
    (h : compressBody room text = .ok bytes) : expandBody bytes = .ok text := by
  induction room generalizing text bytes with
  | zero =>
      cases text with
      | nil =>
          cases h
          rfl
      | cons c rest =>
          obtain ⟨_, _, _, _, _, hroom, -⟩ := compressBody_cons_eq_ok h
          exact absurd hroom (Nat.succ_ne_zero _).symm
  | succ room ih =>
      cases text with
      | nil =>
          cases h
          rfl
      | cons c rest =>
          obtain ⟨_, byte, text, tail, body, hroom, htext, rfl, hbyte, hbody⟩ :=
            compressBody_cons_eq_ok h
          cases hroom
          rw [expandBody, hbyte, ih hbody, htext]
          rfl

theorem expand_of_compress {url : String} {address : EncodedUrl} (h : compress url = .ok address) :
    expand address.bytes = .ok url := by
  cases hbytes : compressBytes url with
  | error fault => simp [compress, hbytes, Except.bind] at h
  | ok bytes =>
      have haddress : address.bytes = bytes := by
        simp only [compress, hbytes, Except.bind, EncodedUrl.ofBytes] at h
        split at h
        next => simp at h
        next =>
          split at h
          next =>
            cases h
            rfl
          next => simp at h
      rw [haddress]
      unfold compressBytes at hbytes
      cases hscheme : startsWith? schemes url.toList with
      | none => simp [hscheme] at hbytes
      | some found =>
          obtain ⟨code, rest⟩ := found
          obtain ⟨word, hcode, htext⟩ := startsWith?_eq_some hscheme
          cases hbody : compressBody (capacity - 1) rest with
          | error fault => simp [hscheme, hbody] at hbytes
          | ok body =>
              simp only [hscheme, hbody] at hbytes
              cases hbytes
              have hcode' : code < 4 := (List.getElem?_eq_some_iff.mp hcode).1
              have hbyte : (UInt8.ofNat code).toNat = code :=
                UInt8.toNat_ofNat_of_lt' (Nat.lt_of_lt_of_le hcode' (by decide))
              rw [expand, hbyte, hcode, expandBody_compressBody hbody]
              change Except.ok (String.ofList (word ++ rest)) = _
              rw [← htext, String.ofList_toList]

/-! ## What expands -/

theorem expandByte_isOk_iff (byte : UInt8) :
    (expandByte byte).isOk ↔ byte < 0x0E ∨ (0x21 ≤ byte ∧ byte ≤ 0x7E) := by
  simp only [UInt8.lt_iff_toNat_lt, UInt8.le_iff_toNat_le]
  unfold expandByte
  cases hending : endings[byte.toNat]? with
  | some ending =>
      have hcode : byte.toNat < 14 := (List.getElem?_eq_some_iff.mp hending).1
      exact ⟨fun _ => .inl hcode, fun _ => rfl⟩
  | none =>
      have hcode : 14 ≤ byte.toNat := List.getElem?_eq_none_iff.mp hending
      by_cases hliteral : isLiteral byte.toNat
      · have hrange : 0x20 < byte.toNat ∧ byte.toNat < 0x7F := by simpa [isLiteral] using hliteral
        simp only [hliteral, if_true]
        exact ⟨fun _ => .inr ⟨hrange.1, Nat.le_of_lt_succ hrange.2⟩, fun _ => rfl⟩
      · have hrange : ¬(0x20 < byte.toNat ∧ byte.toNat < 0x7F) := by simpa [isLiteral] using hliteral
        simp only [hliteral, Bool.false_eq_true, if_false]
        refine ⟨fun h => absurd h Bool.false_ne_true, fun h => absurd ?_ hrange⟩
        rcases h with h | h
        · exact absurd h (Nat.not_lt.mpr hcode)
        · exact ⟨h.1, Nat.lt_succ_of_le h.2⟩

theorem expandBody_isOk_iff (bytes : Bytes) :
    (expandBody bytes).isOk ↔ ∀ byte ∈ bytes, byte < 0x0E ∨ (0x21 ≤ byte ∧ byte ≤ 0x7E) := by
  induction bytes with
  | nil => exact ⟨fun _ _ hmem => absurd hmem List.not_mem_nil, fun _ => rfl⟩
  | cons byte rest ih =>
      rw [List.forall_mem_cons, ← expandByte_isOk_iff, ← ih, expandBody]
      cases expandByte byte with
      | error fault => exact ⟨fun h => absurd h Bool.false_ne_true, fun h => h.1⟩
      | ok text =>
          cases expandBody rest with
          | error fault => exact ⟨fun h => absurd h Bool.false_ne_true, fun h => h.2⟩
          | ok more => exact ⟨fun _ => ⟨rfl, rfl⟩, fun _ => rfl⟩

/-- What expands has a scheme in front, and only codes and literals after it. -/
theorem expand_isOk_iff (scheme : UInt8) (body : Bytes) :
    (expand (scheme :: body)).isOk ↔
      scheme ≤ 3 ∧ ∀ byte ∈ body, byte < 0x0E ∨ (0x21 ≤ byte ∧ byte ≤ 0x7E) := by
  rw [← expandBody_isOk_iff, UInt8.le_iff_toNat_le, expand]
  cases hscheme : schemes[scheme.toNat]? with
  | none =>
      have hcode : 4 ≤ scheme.toNat := List.getElem?_eq_none_iff.mp hscheme
      exact ⟨fun h => absurd h Bool.false_ne_true, fun h => absurd h.1 (Nat.not_le.mpr hcode)⟩
  | some start =>
      have hcode : scheme.toNat < 4 := (List.getElem?_eq_some_iff.mp hscheme).1
      cases expandBody body with
      | error fault => exact ⟨fun h => absurd h Bool.false_ne_true, fun h => h.2⟩
      | ok text => exact ⟨fun _ => ⟨Nat.le_of_lt_succ hcode, rfl⟩, fun _ => rfl⟩

/-! ## Refusals -/

/-- Compression fails for want of room or over what stands in the address. -/
theorem compressBody_error {room : Nat} {text : List Char} {fault : Fault}
    (h : compressBody room text = .error fault) :
    fault = .invalidLength ∨ ∃ cause, fault = .frame cause := by
  induction room generalizing text with
  | zero =>
      cases text with
      | nil => cases h
      | cons c rest =>
          rw [compressBody.eq_def] at h
          simp only at h
          cases hword : startsWith? endings (c :: rest) with
          | some found =>
              rw [hword] at h
              cases h
              exact .inl rfl
          | none =>
              rw [hword] at h
              by_cases hliteral : isLiteral c.toNat
              · simp only [hliteral, if_true] at h
                cases h
                exact .inl rfl
              · simp only [hliteral] at h
                cases h
                exact .inr ⟨_, rfl⟩
  | succ room ih =>
      cases text with
      | nil => cases h
      | cons c rest =>
          rw [compressBody.eq_def] at h
          simp only at h
          have hrest : ∀ {byte tail}, (byte :: ·) <$> compressBody room tail = .error fault →
              fault = .invalidLength ∨ ∃ cause, fault = .frame cause := by
            intro byte tail htail
            cases hbody : compressBody room tail with
            | ok body =>
                rw [hbody] at htail
                cases htail
            | error cause =>
                rw [hbody] at htail
                cases htail
                exact ih hbody
          cases hword : startsWith? endings (c :: rest) with
          | some found =>
              rw [hword] at h
              exact hrest h
          | none =>
              rw [hword] at h
              by_cases hliteral : isLiteral c.toNat
              · simp only [hliteral, if_true] at h
                exact hrest h
              · simp only [hliteral] at h
                cases h
                exact .inr ⟨_, rfl⟩

theorem compress_error {url : String} {fault : Fault} (h : compress url = .error fault) :
    fault = .invalidLength ∨ ∃ cause, fault = .frame cause := by
  unfold compress compressBytes at h
  cases hscheme : startsWith? schemes url.toList with
  | none =>
      rw [hscheme] at h
      cases h
      exact .inr ⟨_, rfl⟩
  | some found =>
      obtain ⟨code, rest⟩ := found
      rw [hscheme] at h
      cases hbody : compressBody (capacity - 1) rest with
      | error cause =>
          simp only [hbody] at h
          cases h
          exact compressBody_error hbody
      | ok body =>
          simp only [hbody] at h
          change EncodedUrl.ofBytes (UInt8.ofNat code :: body) = .error fault at h
          unfold EncodedUrl.ofBytes at h
          rw [if_neg (by simp)] at h
          split at h
          next => cases h
          next =>
            cases h
            exact .inl rfl

end Url

end Beacon
