import Beacon.Proofs.UrlCodec

/-!
# Compressing an expanded address

An address can be encoded in more than one way: an ending may be spelled, or only
its letters, and `www.` may stand in the body.  Compression takes the longest word
at every place.  For the text after the scheme no encoding is shorter than what
this comes to, since a shorter word only leaves letters to be spelled.

The longest scheme is not always the best one.  It takes the dot of `www.`, and if
an ending starts at this dot, the ending is torn.  The scheme saves four bytes and
the letters of `.info/` cost five.
-/

namespace Beacon

namespace Url

/-! ## The longest word -/

/-- Of the words that start the text, the first of the table is the longest, if no word of the
table starts a later one. -/
theorem startsWith?_longest {table : List (List Char)}
    (htable : table.Pairwise fun word later => ¬word <+: later)
    {text rest : List Char} {code : Nat} (h : startsWith? table text = some (code, rest)) :
    ∃ word, table[code]? = some word ∧ text = word ++ rest ∧
      ∀ other ∈ table, other <+: text → other <+: word := by
  obtain ⟨before, ⟨word, n⟩, later, hzip, hmatch, hbefore⟩ := List.findSome?_eq_some_iff.mp h
  simp only [Option.map_eq_some_iff, Prod.mk.injEq] at hmatch
  obtain ⟨tail, hprefix, rfl, rfl⟩ := hmatch
  have htext : text = word ++ tail := (List.append_eq_of_isPrefixOf?_eq_some hprefix).symm
  have hwords : table = before.map Prod.fst ++ word :: later.map Prod.fst := by
    rw [← List.zipIdx_map_fst 0 table, hzip, List.map_append, List.map_cons]
  have hword : (word, n) ∈ table.zipIdx := by
    rw [hzip]
    exact List.mem_append_right _ List.mem_cons_self
  refine ⟨word, List.mem_zipIdx_iff_getElem?.mp hword, htext, fun other hother hfits => ?_⟩
  rw [hwords] at hother htable
  rcases List.mem_append.mp hother with hearlier | hother
  · obtain ⟨entry, hentry, rfl⟩ := List.mem_map.mp hearlier
    obtain ⟨left, hleft⟩ := hfits
    have hnone := Option.map_eq_none_iff.mp (hbefore entry hentry)
    rw [List.isPrefixOf?_eq_some_iff_append_eq.mpr hleft] at hnone
    cases hnone
  · rcases List.mem_cons.mp hother with rfl | hlater
    · exact List.prefix_rfl
    · have hnot := List.rel_of_pairwise_cons (List.pairwise_append.mp htable).2.1 hlater
      have hstarts : word <+: text := ⟨tail, htext.symm⟩
      exact (List.prefix_or_prefix_of_prefix hfits hstarts).resolve_right hnot

theorem startsWith?_eq_none {table : List (List Char)} {text word : List Char}
    (h : startsWith? table text = none) (hword : word ∈ table) : ¬word <+: text := by
  rintro ⟨rest, hrest⟩
  obtain ⟨code, hcode⟩ := List.mem_iff_getElem?.mp hword
  have hentry : (word, code) ∈ table.zipIdx := List.mem_zipIdx_iff_getElem?.mpr hcode
  have hnone := List.findSome?_eq_none_iff.mp h (word, code) hentry
  rw [Option.map_eq_none_iff, List.isPrefixOf?_eq_some_iff_append_eq.mpr hrest] at hnone
  cases hnone

theorem endings_pairwise : endings.Pairwise fun word later => ¬word <+: later := by
  decide

theorem schemes_pairwise : schemes.Pairwise fun word later => ¬word <+: later := by
  decide

theorem dot_of_mem_endings {word : List Char} (h : word ∈ endings) :
    ∃ letters, word = '.' :: letters ∧ '.' ∉ letters := by
  have htable : ∀ word ∈ endings, word.head? = some '.' ∧ '.' ∉ word.tail := by
    decide
  obtain ⟨hhead, htail⟩ := htable word h
  exact ⟨word.tail, (List.cons_head?_tail hhead).symm, htail⟩

/-! ## Bytes and what they stand for -/

def literal (c : Char) : UInt8 :=
  UInt8.ofNat c.toNat

theorem expandByte_eq_ok {byte : UInt8} {piece : List Char} (h : expandByte byte = .ok piece) :
    endings[byte.toNat]? = some piece ∨
      ∃ c, piece = [c] ∧ byte = literal c ∧ isLiteral c.toNat := by
  rw [expandByte] at h
  cases hending : endings[byte.toNat]? with
  | some ending =>
      rw [hending] at h
      cases h
      exact .inl rfl
  | none =>
      rw [hending] at h
      by_cases hliteral : isLiteral byte.toNat
      · simp only [hliteral, if_true] at h
        cases h
        have hvalid : byte.toNat.isValidChar :=
          .inl (Nat.lt_trans byte.toNat_lt (by decide))
        have hchar : (Char.ofNat byte.toNat).toNat = byte.toNat := by
          rw [Char.ofNat, dif_pos hvalid]
          rfl
        refine .inr ⟨_, rfl, ?_, ?_⟩
        · rw [literal, hchar, UInt8.ofNat_toNat]
        · rw [hchar, hliteral]
      · simp [hliteral] at h

theorem expandByte_ne_nil {byte : UInt8} {piece : List Char} (h : expandByte byte = .ok piece) :
    piece ≠ [] := by
  rcases expandByte_eq_ok h with hending | ⟨c, rfl, -⟩
  · obtain ⟨letters, rfl, -⟩ := dot_of_mem_endings (List.mem_of_getElem? hending)
    exact List.cons_ne_nil _ _
  · exact List.cons_ne_nil _ _

theorem expandBody_cons_eq_ok {byte : UInt8} {more : Bytes} {text : List Char}
    (h : expandBody (byte :: more) = .ok text) :
    ∃ piece following, expandByte byte = .ok piece ∧ expandBody more = .ok following ∧
      text = piece ++ following := by
  rw [expandBody] at h
  cases hbyte : expandByte byte with
  | error fault => simp [hbyte] at h
  | ok piece =>
      cases hmore : expandBody more with
      | error fault => simp [hbyte, hmore] at h
      | ok following =>
          simp only [hbyte, hmore] at h
          cases h
          exact ⟨piece, following, rfl, rfl, rfl⟩

theorem expandBody_eq_ok_cons {bytes : Bytes} {c : Char} {text : List Char}
    (h : expandBody bytes = .ok (c :: text)) :
    ∃ byte more front following, bytes = byte :: more ∧ expandByte byte = .ok (c :: front) ∧
      expandBody more = .ok following ∧ text = front ++ following := by
  cases bytes with
  | nil => cases h
  | cons byte more =>
      obtain ⟨piece, following, hbyte, hmore, htext⟩ := expandBody_cons_eq_ok h
      cases piece with
      | nil => exact absurd rfl (expandByte_ne_nil hbyte)
      | cons d front =>
          obtain ⟨rfl, rfl⟩ : c = d ∧ text = front ++ following := List.cons.inj htext
          exact ⟨byte, more, front, following, rfl, hbyte, hmore, rfl⟩

theorem expandBody_append {front : Bytes} {text : List Char} (h : expandBody front = .ok text)
    (back : Bytes) : expandBody (front ++ back) = (text ++ ·) <$> expandBody back := by
  induction front generalizing text with
  | nil =>
      cases h
      exact (id_map (expandBody back)).symm
  | cons byte front ih =>
      obtain ⟨piece, following, hbyte, hfollowing, rfl⟩ := expandBody_cons_eq_ok h
      rw [List.cons_append, expandBody, hbyte, ih hfollowing]
      cases expandBody back with
      | error fault => rfl
      | ok more => exact congrArg Except.ok (List.append_assoc piece following more).symm

theorem isLiteral_of_expandBody {bytes : Bytes} {text : List Char}
    (h : expandBody bytes = .ok text) : ∀ c ∈ text, isLiteral c.toNat := by
  have htable : ∀ ending ∈ endings, ending.all fun c => isLiteral c.toNat := by
    decide
  induction bytes generalizing text with
  | nil =>
      cases h
      exact fun c hc => absurd hc List.not_mem_nil
  | cons byte more ih =>
      obtain ⟨piece, following, hbyte, hmore, rfl⟩ := expandBody_cons_eq_ok h
      intro c hc
      rcases List.mem_append.mp hc with hpiece | hfollowing
      · rcases expandByte_eq_ok hbyte with hending | ⟨d, rfl, -, hliteral⟩
        · exact List.all_eq_true.mp (htable piece (List.mem_of_getElem? hending)) c hpiece
        · rwa [List.mem_singleton.mp hpiece]
      · exact ih hmore c hfollowing

/-- Any text that can be encoded can be spelled. -/
theorem expandBody_literals {text : List Char} (h : ∀ c ∈ text, isLiteral c.toNat) :
    expandBody (text.map literal) = .ok text := by
  induction text with
  | nil => rfl
  | cons c text ih =>
      rw [List.forall_mem_cons] at h
      rw [List.map_cons, expandBody, literal, expandByte_literal h.1, ih h.2]
      rfl

/-- Where there is no dot, each character stands for itself. -/
theorem spelled {letters tail : List Char} {bytes : Bytes} (hdot : '.' ∉ letters)
    (h : expandBody bytes = .ok (letters ++ tail)) :
    ∃ rest, bytes = letters.map literal ++ rest ∧ expandBody rest = .ok tail := by
  induction letters generalizing bytes with
  | nil => exact ⟨bytes, rfl, h⟩
  | cons c letters ih =>
      obtain ⟨byte, more, front, following, rfl, hbyte, hmore, htext⟩ := expandBody_eq_ok_cons h
      rw [List.mem_cons, not_or] at hdot
      rcases expandByte_eq_ok hbyte with hending | ⟨d, hpiece, rfl, -⟩
      · obtain ⟨after, hafter, -⟩ := dot_of_mem_endings (List.mem_of_getElem? hending)
        exact absurd (List.cons.inj hafter).1.symm hdot.1
      · obtain ⟨rfl, rfl⟩ := List.cons.inj hpiece
        obtain rfl : letters ++ tail = following := htext
        obtain ⟨rest, rfl, htail⟩ := ih hdot.2 hmore
        exact ⟨rest, rfl, htail⟩

/-! ## One byte at a time -/

/-- Compression takes a byte for the start of the text, and nobody can do better there: whatever
expands to the text has bytes enough for the rest and one more. -/
structure Takes (text : List Char) (byte : UInt8) (rest : List Char) : Prop where
  expands : ∃ piece, expandByte byte = .ok piece ∧ text = piece ++ rest
  full : compressBody 0 text = .error .invalidLength
  room : ∀ room, compressBody (room + 1) text = (byte :: ·) <$> compressBody room rest
  shortest : ∀ bytes, expandBody bytes = .ok text →
    ∃ others, expandBody others = .ok rest ∧ others.length < bytes.length

/-- An ending is taken whole.  Another byte that starts its text gives less of it, and then the
letters that are missing have to be spelled. -/
theorem takes_ending {c : Char} {text rest : List Char} {code : Nat}
    (h : startsWith? endings (c :: text) = some (code, rest)) :
    Takes (c :: text) (UInt8.ofNat code) rest := by
  obtain ⟨word, hcode, htext, hlongest⟩ := startsWith?_longest endings_pairwise h
  refine ⟨⟨word, expandByte_code hcode, htext⟩, ?_, fun room => ?_, fun bytes hbytes => ?_⟩
  · rw [compressBody.eq_def]
    simp only [h]
  · rw [compressBody.eq_def]
    simp only [h]
  · obtain ⟨letters, rfl, hdot⟩ := dot_of_mem_endings (List.mem_of_getElem? hcode)
    obtain ⟨rfl, rfl⟩ : c = '.' ∧ text = letters ++ rest := List.cons.inj htext
    obtain ⟨byte, more, front, following, rfl, hbyte, hmore, hsplit⟩ :=
      expandBody_eq_ok_cons hbytes
    have hpiece : '.' :: front <+: '.' :: letters := by
      rcases expandByte_eq_ok hbyte with hending | ⟨d, hliteral, -⟩
      · refine hlongest _ (List.mem_of_getElem? hending) ⟨following, ?_⟩
        rw [hsplit, List.cons_append]
      · obtain ⟨rfl, rfl⟩ := List.cons.inj hliteral
        exact ⟨letters, rfl⟩
    obtain ⟨missing, hmissing⟩ := hpiece
    obtain ⟨-, rfl⟩ : '.' = '.' ∧ front ++ missing = letters := List.cons.inj hmissing
    rw [List.append_assoc] at hsplit
    obtain rfl := List.append_cancel_left hsplit
    rw [List.mem_append, not_or] at hdot
    obtain ⟨others, rfl, hothers⟩ := spelled hdot.2 hmore
    refine ⟨others, hothers, ?_⟩
    rw [List.length_cons, List.length_append]
    omega

/-- Where no ending starts, a character stands for itself in every encoding. -/
theorem takes_literal {c : Char} {rest : List Char} (h : startsWith? endings (c :: rest) = none)
    (hliteral : isLiteral c.toNat) : Takes (c :: rest) (literal c) rest := by
  refine ⟨⟨[c], expandByte_literal hliteral, rfl⟩, ?_, fun room => ?_, fun bytes hbytes => ?_⟩
  · rw [compressBody.eq_def]
    simp only [h, hliteral, if_true]
  · rw [compressBody.eq_def]
    simp only [h, hliteral, if_true]
    rfl
  · obtain ⟨byte, more, front, following, rfl, hbyte, hmore, rfl⟩ := expandBody_eq_ok_cons hbytes
    rcases expandByte_eq_ok hbyte with hending | ⟨d, hpiece, rfl, -⟩
    · exact absurd (List.prefix_append (c :: front) following)
        (startsWith?_eq_none h (List.mem_of_getElem? hending))
    · obtain ⟨rfl, rfl⟩ := List.cons.inj hpiece
      exact ⟨more, hmore, Nat.lt_succ_self _⟩

theorem exists_takes {c : Char} {text : List Char} (h : isLiteral c.toNat) :
    ∃ byte rest, Takes (c :: text) byte rest := by
  cases hfound : startsWith? endings (c :: text) with
  | none => exact ⟨_, _, takes_literal hfound h⟩
  | some found => exact ⟨_, _, takes_ending hfound⟩

theorem Takes.length_lt {text rest : List Char} {byte : UInt8} (h : Takes text byte rest) :
    rest.length < text.length := by
  obtain ⟨piece, hbyte, rfl⟩ := h.expands
  have hpos := List.length_pos_iff.mpr (expandByte_ne_nil hbyte)
  rw [List.length_append]
  omega

/-! ## The shortest encoding -/

/-- The bytes to which compression brings the text if they fit. -/
structure Tightest (text : List Char) (best : Bytes) : Prop where
  expands : expandBody best = .ok text
  shortest : ∀ bytes, expandBody bytes = .ok text → best.length ≤ bytes.length
  compressed : ∀ room, compressBody room text =
    if best.length ≤ room then .ok best else .error .invalidLength

theorem tightest_nil : Tightest [] [] := by
  refine ⟨rfl, fun _ _ => Nat.zero_le _, fun room => ?_⟩
  rw [compressBody.eq_1]
  exact (if_pos room.zero_le).symm

theorem Tightest.cons {text rest : List Char} {byte : UInt8} {best : Bytes}
    (htakes : Takes text byte rest) (h : Tightest rest best) : Tightest text (byte :: best) := by
  constructor
  case expands =>
    obtain ⟨piece, hbyte, rfl⟩ := htakes.expands
    rw [expandBody, hbyte, h.expands]
    rfl
  case shortest =>
    intro bytes hbytes
    obtain ⟨others, hothers, hlength⟩ := htakes.shortest bytes hbytes
    exact Nat.lt_of_le_of_lt (h.shortest others hothers) hlength
  case compressed =>
    intro room
    cases room with
    | zero => rw [htakes.full, List.length_cons, if_neg (Nat.not_succ_le_zero _)]
    | succ room =>
        rw [htakes.room, h.compressed, List.length_cons]
        by_cases hfits : best.length ≤ room
        · rw [if_pos hfits, if_pos (Nat.succ_le_succ hfits)]
          rfl
        · rw [if_neg hfits, if_neg (mt Nat.le_of_succ_le_succ hfits)]
          rfl

theorem exists_tightest {text : List Char} (h : ∀ c ∈ text, isLiteral c.toNat) :
    ∃ best, Tightest text best := by
  cases text with
  | nil => exact ⟨[], tightest_nil⟩
  | cons c text =>
      obtain ⟨byte, rest, htakes⟩ := exists_takes (h c List.mem_cons_self)
      have hshorter := htakes.length_lt
      obtain ⟨piece, -, hpiece⟩ := htakes.expands
      rw [hpiece, List.forall_mem_append] at h
      obtain ⟨best, hbest⟩ := exists_tightest h.2
      exact ⟨byte :: best, hbest.cons htakes⟩
termination_by text.length

/-- Letters without a dot cost a byte each. -/
theorem Tightest.length_append {letters text : List Char} {best rest : Bytes}
    (hdot : '.' ∉ letters) (h : Tightest (letters ++ text) best) (hrest : Tightest text rest) :
    best.length = letters.length + rest.length := by
  obtain ⟨others, rfl, hothers⟩ := spelled hdot h.expands
  have hletters := (List.forall_mem_append.mp (isLiteral_of_expandBody h.expands)).1
  have hleast := hrest.shortest others hothers
  have hspelled : expandBody (letters.map literal ++ rest) = .ok (letters ++ text) := by
    rw [expandBody_append (expandBody_literals hletters), hrest.expands]
    rfl
  have hmost := h.shortest _ hspelled
  rw [List.length_append, List.length_append, List.length_map] at hmost
  rw [List.length_append, List.length_map]
  omega

/-! ## Schemes -/

/-- Compression gives the address back, in no more bytes than there were. -/
def Recompresses (data : Bytes) (url : String) : Prop :=
  ∃ address, compress url = .ok address ∧ address.bytes.length ≤ data.length ∧
    expand address.bytes = .ok url

/-- The scheme leaves `www` to the body, where the ending `.info/` comes next.  Compression takes
the dot for the scheme, so that the rest of the ending has to be spelled; and after the ending
there is no byte too many that would make up for it. -/
def Torn (data : Bytes) : Prop :=
  ∃ scheme rest, data = scheme :: (['w', 'w', 'w'].map literal ++ 4 :: rest) ∧
    (scheme = 2 ∨ scheme = 3) ∧ ∀ other, expandBody other = expandBody rest →
      rest.length ≤ other.length

theorem expand_eq_ok {data : Bytes} {url : String} (h : expand data = .ok url) :
    ∃ scheme body start text, data = scheme :: body ∧ schemes[scheme.toNat]? = some start ∧
      expandBody body = .ok text ∧ url = String.ofList (start ++ text) := by
  cases data with
  | nil => cases h
  | cons scheme body =>
      rw [expand] at h
      cases hscheme : schemes[scheme.toNat]? with
      | none => simp [hscheme] at h
      | some start =>
          cases hbody : expandBody body with
          | error fault => simp [hscheme, hbody] at h
          | ok text =>
              simp only [hscheme, hbody] at h
              cases h
              exact ⟨scheme, body, start, text, rfl, hscheme, hbody, rfl⟩

theorem compress_of_tightest {text rest : List Char} {code : Nat} {best : Bytes}
    (hscheme : startsWith? schemes text = some (code, rest)) (hbest : Tightest rest best) :
    compress (String.ofList text) =
      if hroom : best.length < capacity then .ok ⟨UInt8.ofNat code :: best, hroom⟩
      else .error .invalidLength := by
  rw [compress, compressBytes, String.toList_ofList, hscheme]
  simp only [hbest.compressed]
  by_cases hroom : best.length < capacity
  · rw [dif_pos hroom, if_pos (Nat.le_sub_one_of_lt hroom)]
    change EncodedUrl.ofBytes (UInt8.ofNat code :: best) = _
    rw [EncodedUrl.ofBytes, if_neg (List.cons_ne_nil _ _)]
    exact dif_pos hroom
  · have hcapacity : ¬best.length ≤ capacity - 1 := by
      rw [capacity] at hroom ⊢
      omega
    rw [dif_neg hroom, if_neg hcapacity]
    rfl

/-- What counts is the shortest encoding of the text after the scheme that compression takes. -/
theorem recompresses_iff_length {data : Bytes} {text rest : List Char} {code : Nat} {best : Bytes}
    (hfits : data.length ≤ capacity) (hscheme : startsWith? schemes text = some (code, rest))
    (hbest : Tightest rest best) :
    Recompresses data (String.ofList text) ↔ best.length < data.length := by
  have hcompress := compress_of_tightest hscheme hbest
  by_cases hroom : best.length < capacity
  · rw [dif_pos hroom] at hcompress
    constructor
    · rintro ⟨address, haddress, hlength, -⟩
      rw [hcompress] at haddress
      cases haddress
      exact hlength
    · exact fun hlength => ⟨_, hcompress, hlength, expand_of_compress hcompress⟩
  · rw [dif_neg hroom] at hcompress
    constructor
    · rintro ⟨address, haddress, -⟩
      rw [hcompress] at haddress
      cases haddress
    · exact fun hlength => absurd (Nat.lt_of_lt_of_le hlength hfits) hroom

/-- Two schemes start the same text only if one of them goes on with `www.`. -/
theorem scheme_extends {start longer : List Char} (hstart : start ∈ schemes)
    (hlonger : longer ∈ schemes) (h : start <+: longer) :
    longer = start ∨ longer = start ++ ['w', 'w', 'w', '.'] := by
  have htable : ∀ start ∈ schemes, ∀ longer ∈ schemes, start <+: longer →
      longer = start ∨ longer = start ++ ['w', 'w', 'w', '.'] := by
    decide
  exact htable start hstart longer hlonger h

/-- The dot of an ending is followed by at most five letters, and by five in one ending only. -/
theorem letters_of_expandByte {byte : UInt8} {letters : List Char}
    (h : expandByte byte = .ok ('.' :: letters)) :
    '.' ∉ letters ∧ letters.length ≤ 5 ∧ (letters.length = 5 ↔ byte = 4) := by
  have htable : ∀ entry ∈ endings.zipIdx, '.' ∉ entry.1.tail ∧ entry.1.tail.length ≤ 5 ∧
      (entry.1.tail.length = 5 ↔ entry.2 = 4) := by
    decide
  rcases expandByte_eq_ok h with hending | ⟨c, hpiece, rfl, -⟩
  · have hentry : ('.' :: letters, byte.toNat) ∈ endings.zipIdx :=
      List.mem_zipIdx_iff_getElem?.mpr hending
    obtain ⟨hdot, hle, heq⟩ := htable _ hentry
    exact ⟨hdot, hle, heq.trans (UInt8.toNat_inj (b := 4))⟩
  · obtain ⟨rfl, rfl⟩ := List.cons.inj hpiece
    exact ⟨List.not_mem_nil, Nat.zero_le _, by decide⟩

/-! ## The torn ending -/

/-- Where an ending is torn, the text goes on with what a longer scheme has. -/
theorem Torn.longer_scheme {scheme : UInt8} {body : Bytes} {start text : List Char}
    (h : Torn (scheme :: body)) (hstart : schemes[scheme.toNat]? = some start)
    (hbody : expandBody body = .ok text) :
    start ++ ['w', 'w', 'w', '.'] ∈ schemes ∧ ['w', 'w', 'w', '.'] <+: text := by
  obtain ⟨_, rest, hdata, hscheme, -⟩ := h
  obtain ⟨rfl, rfl⟩ := List.cons.inj hdata
  constructor
  · rcases hscheme with rfl | rfl
    · cases hstart
      decide
    · cases hstart
      decide
  · have hfront : expandBody (['w', 'w', 'w'].map literal ++ [4]) =
        .ok (['w', 'w', 'w', '.'] ++ ['i', 'n', 'f', 'o', '/']) := rfl
    rw [List.append_cons, expandBody_append hfront] at hbody
    cases hrest : expandBody rest with
    | error fault => simp [hrest] at hbody
    | ok following =>
        rw [hrest] at hbody
        cases hbody
        exact ⟨['i', 'n', 'f', 'o', '/'] ++ following, rfl⟩

theorem scheme_of_longer {scheme : UInt8} {start : List Char}
    (hstart : schemes[scheme.toNat]? = some start)
    (hlonger : start ++ ['w', 'w', 'w', '.'] ∈ schemes) : scheme = 2 ∨ scheme = 3 := by
  have htable : ∀ entry ∈ schemes.zipIdx, entry.1 ++ ['w', 'w', 'w', '.'] ∈ schemes →
      entry.2 = 2 ∨ entry.2 = 3 := by
    decide
  have hentry : (start, scheme.toNat) ∈ schemes.zipIdx := List.mem_zipIdx_iff_getElem?.mpr hstart
  exact (htable _ hentry hlonger).imp (UInt8.toNat_inj (b := 2)).mp (UInt8.toNat_inj (b := 3)).mp

/-- Compression loses a byte where an ending is torn, and nowhere else. -/
theorem torn_iff_length_lt {scheme : UInt8} {body best : Bytes} {start rest : List Char}
    (hstart : schemes[scheme.toNat]? = some start)
    (hlonger : start ++ ['w', 'w', 'w', '.'] ∈ schemes)
    (hbody : expandBody body = .ok (['w', 'w', 'w', '.'] ++ rest)) (hbest : Tightest rest best) :
    Torn (scheme :: body) ↔ body.length < best.length := by
  have hwww : '.' ∉ ['w', 'w', 'w'] := by
    decide
  obtain ⟨others, rfl, hothers⟩ := spelled hwww hbody
  -- The dot after `www` has a byte of its own, or it starts an ending.
  obtain ⟨byte, more, letters, following, rfl, hbyte, hmore, rfl⟩ := expandBody_eq_ok_cons hothers
  obtain ⟨hdot, hle, heq⟩ := letters_of_expandByte hbyte
  obtain ⟨least, hleast⟩ := exists_tightest (isLiteral_of_expandBody hmore)
  have hbest_length := hbest.length_append hdot hleast
  have hbody_length : (['w', 'w', 'w'].map literal ++ byte :: more).length = 4 + more.length := by
    rw [List.length_append, List.length_map, List.length_cons, List.length_cons, List.length_cons,
      List.length_cons, List.length_nil]
    omega
  rw [hbody_length, hbest_length]
  constructor
  · rintro ⟨_, _, hdata, -, htight⟩
    obtain ⟨-, hbytes⟩ := List.cons.inj hdata
    obtain ⟨rfl, rfl⟩ := List.cons.inj (List.append_cancel_left hbytes)
    have hfive := heq.mpr rfl
    have hshort := htight least (hleast.expands.trans hmore.symm)
    omega
  · intro hlt
    have hmost := hleast.shortest more hmore
    obtain rfl := heq.mp (by omega)
    refine ⟨scheme, more, rfl, scheme_of_longer hstart hlonger, fun other hother => ?_⟩
    have hshort := hleast.shortest other (hother.trans hmore)
    omega

/-- An encoding with no torn ending, and only such a one, is compressed again to one that is no
longer. -/
theorem recompresses_iff_not_torn {data : Bytes} {url : String} (hfits : data.length ≤ capacity)
    (h : expand data = .ok url) : Recompresses data url ↔ ¬Torn data := by
  obtain ⟨scheme, body, start, text, rfl, hstart, hbody, rfl⟩ := expand_eq_ok h
  have hprefix : start <+: start ++ text := List.prefix_append start text
  have hmem : start ∈ schemes := List.mem_of_getElem? hstart
  cases hfound : startsWith? schemes (start ++ text) with
  | none => exact absurd hprefix (startsWith?_eq_none hfound hmem)
  | some found =>
      obtain ⟨code, rest⟩ := found
      obtain ⟨longer, hcode, htext, hlongest⟩ := startsWith?_longest schemes_pairwise hfound
      rcases scheme_extends hmem (List.mem_of_getElem? hcode) (hlongest start hmem hprefix) with
        rfl | rfl
      · -- Compression takes the scheme of the data.
        obtain rfl := List.append_cancel_left htext
        obtain ⟨best, hbest⟩ := exists_tightest (isLiteral_of_expandBody hbody)
        have hnot : ¬Torn (scheme :: body) := by
          intro htorn
          obtain ⟨hlonger, hwww⟩ := htorn.longer_scheme hstart hbody
          have hstarts := hlongest _ hlonger ((List.prefix_append_right_inj _).mpr hwww)
          have hlength := hstarts.length_le
          rw [List.length_append] at hlength
          exact absurd hlength (Nat.not_le.mpr (Nat.lt_add_of_pos_right (by decide)))
        rw [recompresses_iff_length hfits hfound hbest]
        exact iff_of_true (Nat.lt_succ_of_le (hbest.shortest body hbody)) hnot
      · -- It takes the one that goes on with `www.`.
        rw [List.append_assoc] at htext
        obtain rfl := List.append_cancel_left htext
        have hrest := (List.forall_mem_append.mp (isLiteral_of_expandBody hbody)).2
        obtain ⟨best, hbest⟩ := exists_tightest hrest
        rw [recompresses_iff_length hfits hfound hbest,
          torn_iff_length_lt hstart (List.mem_of_getElem? hcode) hbody hbest, List.length_cons,
          Nat.not_lt]
        exact Nat.lt_succ_iff

/-- The ending is torn here, but a domain is spelled after it, and its code saves enough. -/
theorem recompresses_spelled_domain :
    [3, 119, 119, 119, 4, 46, 99, 111, 109].length ≤ capacity ∧
      expand [3, 119, 119, 119, 4, 46, 99, 111, 109] = .ok "https://www.info/.com" ∧
      (Recompresses [3, 119, 119, 119, 4, 46, 99, 111, 109] "https://www.info/.com" ↔
        ¬Torn [3, 119, 119, 119, 4, 46, 99, 111, 109]) :=
  ⟨by decide, rfl, recompresses_iff_not_torn (by decide) rfl⟩

/-- Five bytes stand for an address that compression brings to six. -/
theorem torn_ending_grows :
    ¬∀ data url, data.length ≤ capacity → expand data = .ok url → Recompresses data url := by
  intro hall
  have hgrows := hall [2, 119, 119, 119, 4]
    (.ofList ['h', 't', 't', 'p', ':', '/', '/', 'w', 'w', 'w', '.', 'i', 'n', 'f', 'o', '/'])
    (by decide) rfl
  have hbest : Tightest ['i', 'n', 'f', 'o', '/'] (['i', 'n', 'f', 'o', '/'].map literal) :=
    .cons (takes_literal rfl rfl) <| .cons (takes_literal rfl rfl) <|
      .cons (takes_literal rfl rfl) <| .cons (takes_literal rfl rfl) <|
        .cons (takes_literal rfl rfl) tightest_nil
  have hscheme : startsWith? schemes ['h', 't', 't', 'p', ':', '/', '/', 'w', 'w', 'w', '.', 'i',
      'n', 'f', 'o', '/'] = some (0, ['i', 'n', 'f', 'o', '/']) := rfl
  exact absurd ((recompresses_iff_length (by decide) hscheme hbest).mp hgrows) (by decide)

end Url

end Beacon
