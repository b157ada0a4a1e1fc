import Beacon.Proofs.Recompression

/-!
# The pieces of a web address

Compression cuts an address into pieces, from left to right: a scheme, and then
the longest ending that starts what is left, or one character where no ending
does.  Every piece takes one byte.  So whether a printable address can be
compressed is a matter of counting its pieces, and of nothing else.
-/

namespace Beacon

namespace Url

/-- The text is cut from left to right, into the longest ending that starts what is left or, where
none does, into a single character. -/
inductive Cut : List Char → List (List Char) → Prop
  | done : Cut [] []
  | ending {word rest : List Char} {pieces : List (List Char)} :
      word ∈ endings → (∀ other ∈ endings, other <+: word ++ rest → other.length ≤ word.length) →
      Cut rest pieces → Cut (word ++ rest) (word :: pieces)
  | character {c : Char} {rest : List Char} {pieces : List (List Char)} :
      (∀ word ∈ endings, ¬word <+: c :: rest) → Cut rest pieces → Cut (c :: rest) ([c] :: pieces)

/-- The pieces of an address after its scheme, which is the longest that starts it. -/
def Pieces (text : List Char) (pieces : List (List Char)) : Prop :=
  ∃ scheme rest, scheme ∈ schemes ∧ text = scheme ++ rest ∧
    (∀ other ∈ schemes, other <+: text → other.length ≤ scheme.length) ∧ Cut rest pieces

/-! ## Words that start a text -/

/-- The longest word that starts the text is the one that is found. -/
theorem startsWith?_of_longest {table : List (List Char)}
    (htable : table.Pairwise fun word later => ¬word <+: later) {word rest : List Char}
    (hword : word ∈ table)
    (hlongest : ∀ other ∈ table, other <+: word ++ rest → other.length ≤ word.length) :
    ∃ code, startsWith? table (word ++ rest) = some (code, rest) ∧ table[code]? = some word := by
  have hprefix : word <+: word ++ rest := List.prefix_append word rest
  cases hfound : startsWith? table (word ++ rest) with
  | none => exact absurd hprefix (startsWith?_eq_none hfound hword)
  | some found =>
      obtain ⟨code, tail⟩ := found
      obtain ⟨longer, hcode, htext, hbest⟩ := startsWith?_longest htable hfound
      have hlength := hlongest longer (List.mem_of_getElem? hcode) ⟨tail, htext.symm⟩
      obtain rfl : word = longer := (hbest word hword hprefix).eq_of_length_le hlength
      obtain rfl : rest = tail := List.append_cancel_left htext
      exact ⟨code, rfl, hcode⟩

theorem startsWith?_of_none {table : List (List Char)} {text : List Char}
    (h : ∀ word ∈ table, ¬word <+: text) : startsWith? table text = none := by
  cases hfound : startsWith? table text with
  | none => rfl
  | some found =>
      obtain ⟨code, rest⟩ := found
      obtain ⟨word, hcode, htext⟩ := startsWith?_eq_some hfound
      exact absurd ⟨rest, htext.symm⟩ (h word (List.mem_of_getElem? hcode))

theorem ne_nil_of_mem_endings {word : List Char} (h : word ∈ endings) : word ≠ [] := by
  obtain ⟨letters, rfl, -⟩ := dot_of_mem_endings h
  exact List.cons_ne_nil _ _

/-! ## Cutting -/

theorem exists_cut (text : List Char) : ∃ pieces, Cut text pieces := by
  cases text with
  | nil => exact ⟨[], .done⟩
  | cons c text =>
      cases hfound : startsWith? endings (c :: text) with
      | none =>
          obtain ⟨pieces, hpieces⟩ := exists_cut text
          exact ⟨[c] :: pieces, .character (fun _ hword => startsWith?_eq_none hfound hword) hpieces⟩
      | some found =>
          obtain ⟨code, rest⟩ := found
          obtain ⟨word, hcode, htext, hlongest⟩ := startsWith?_longest endings_pairwise hfound
          have hword : word ∈ endings := List.mem_of_getElem? hcode
          have hshorter : rest.length < (c :: text).length := by
            have hpos := List.length_pos_iff.mpr (ne_nil_of_mem_endings hword)
            rw [htext, List.length_append]
            omega
          obtain ⟨pieces, hpieces⟩ := exists_cut rest
          refine ⟨word :: pieces, ?_⟩
          rw [htext] at hlongest ⊢
          exact .ending hword (fun other hother hfits =>
            (hlongest other hother hfits).length_le) hpieces
termination_by text.length
decreasing_by
  · exact Nat.lt_succ_self _
  · exact hshorter

theorem exists_pieces {text scheme rest : List Char} (hscheme : scheme ∈ schemes)
    (htext : text = scheme ++ rest) : ∃ pieces, Pieces text pieces := by
  have hprefix : scheme <+: text := ⟨rest, htext.symm⟩
  cases hfound : startsWith? schemes text with
  | none => exact absurd hprefix (startsWith?_eq_none hfound hscheme)
  | some found =>
      obtain ⟨code, body⟩ := found
      obtain ⟨longest, hcode, hbody, hlongest⟩ := startsWith?_longest schemes_pairwise hfound
      obtain ⟨pieces, hpieces⟩ := exists_cut body
      exact ⟨pieces, longest, body, List.mem_of_getElem? hcode, hbody,
        fun other hother hfits => (hlongest other hother hfits).length_le, hpieces⟩

/-- Every piece takes one byte. -/
theorem Cut.exists_tightest {text : List Char} {pieces : List (List Char)} (h : Cut text pieces)
    (hliteral : ∀ c ∈ text, isLiteral c.toNat) :
    ∃ best, Tightest text best ∧ best.length = pieces.length := by
  induction h with
  | done => exact ⟨[], tightest_nil, rfl⟩
  | @ending word rest pieces hword hlongest _ ih =>
      obtain ⟨best, hbest, hlength⟩ := ih (List.forall_mem_append.mp hliteral).2
      obtain ⟨code, hfound, -⟩ := startsWith?_of_longest endings_pairwise hword hlongest
      cases word with
      | nil => exact absurd rfl (ne_nil_of_mem_endings hword)
      | cons c letters =>
          exact ⟨_, hbest.cons (takes_ending hfound), congrArg Nat.succ hlength⟩
  | @character c rest pieces hnone _ ih =>
      rw [List.forall_mem_cons] at hliteral
      obtain ⟨best, hbest, hlength⟩ := ih hliteral.2
      exact ⟨_, hbest.cons (takes_literal (startsWith?_of_none hnone) hliteral.1),
        congrArg Nat.succ hlength⟩

/-! ## Compression -/

theorem isLiteral_of_printable {c : Char} (h : '!' ≤ c ∧ c ≤ '~') : isLiteral c.toNat := by
  have hlow : 0x21 ≤ c.toNat := UInt32.le_iff_toNat_le.mp h.1
  have hhigh : c.toNat ≤ 0x7E := UInt32.le_iff_toNat_le.mp h.2
  simp only [isLiteral, Bool.and_eq_true, decide_eq_true_eq]
  omega

theorem printable_of_all {text : List Char} (h : text.all fun c => '!' ≤ c ∧ c ≤ '~') :
    ∀ c ∈ text, '!' ≤ c ∧ c ≤ '~' := by
  intro c hc
  have htrue := List.all_eq_true.mp h c hc
  exact of_decide_eq_true htrue

theorem printable_of_mem_scheme {scheme : List Char} (h : scheme ∈ schemes) :
    ∀ c ∈ scheme, '!' ≤ c ∧ c ≤ '~' := by
  have htable : schemes.all fun word => word.all fun c => '!' ≤ c ∧ c ≤ '~' := by
    decide
  exact printable_of_all (List.all_eq_true.mp htable scheme h)

theorem compress_of_no_scheme {url : String} (h : ∀ scheme ∈ schemes, ¬scheme <+: url.toList) :
    compress url = .error (.frame .unsupportedScheme) := by
  rw [compress, compressBytes, startsWith?_of_none h]
  rfl

theorem length_of_compress {url : String} {address : EncodedUrl} (h : compress url = .ok address) :
    1 ≤ address.bytes.length := by
  have hexpands := expand_of_compress h
  cases hbytes : address.bytes with
  | nil =>
      rw [hbytes] at hexpands
      cases hexpands
  | cons scheme body => exact Nat.succ_pos _

/-- Compression of a printable address is a matter of room: one byte for the scheme, and one for
every piece after it. -/
theorem compress_of_pieces {url : String} {pieces : List (List Char)}
    (hprintable : ∀ c ∈ url.toList, '!' ≤ c ∧ c ≤ '~') (h : Pieces url.toList pieces) :
    (1 + pieces.length ≤ capacity ∧ ∃ address, compress url = .ok address) ∨
      (capacity < 1 + pieces.length ∧ compress url = .error .invalidLength) := by
  obtain ⟨scheme, rest, hscheme, htext, hlongest, hcut⟩ := h
  rw [htext] at hlongest hprintable
  obtain ⟨code, hfound, -⟩ := startsWith?_of_longest schemes_pairwise hscheme hlongest
  obtain ⟨best, hbest, hlength⟩ := hcut.exists_tightest fun c hc =>
    isLiteral_of_printable (hprintable c (List.mem_append_right _ hc))
  have hcompress := compress_of_tightest hfound hbest
  rw [← htext, String.ofList_toList] at hcompress
  by_cases hroom : best.length < capacity
  · rw [dif_pos hroom] at hcompress
    exact .inl ⟨by omega, _, hcompress⟩
  · rw [dif_neg hroom] at hcompress
    exact .inr ⟨by omega, hcompress⟩

/-- What is compressed fits an advert and expands to the address again.  Without a scheme there is
no encoding, and a printable address with one is refused only if it has more pieces than there is
room for. -/
theorem compresses_by_pieces (url : String) :
    (∀ address, compress url = .ok address →
      1 ≤ address.bytes.length ∧ address.bytes.length ≤ 18 ∧ expand address.bytes = .ok url) ∧
    ((∀ scheme ∈ schemes, ¬scheme <+: url.toList) →
      compress url = .error (.frame .unsupportedScheme)) ∧
    ∀ scheme ∈ schemes, ∀ rest, url.toList = scheme ++ rest → (∀ c ∈ rest, '!' ≤ c ∧ c ≤ '~') →
      (∃ pieces, Pieces url.toList pieces) ∧ ∀ pieces, Pieces url.toList pieces →
        (∀ fault, compress url = .error fault → fault = .invalidLength) ∧
        (compress url = .error .invalidLength ↔ 18 < 1 + pieces.length) := by
  refine ⟨?sound, compress_of_no_scheme, ?room⟩
  case sound =>
    intro address haddress
    exact ⟨length_of_compress haddress, address.fits, expand_of_compress haddress⟩
  case room =>
    intro scheme hscheme rest htext hrest
    refine ⟨exists_pieces hscheme htext, fun pieces hpieces => ?_⟩
    have hprintable : ∀ c ∈ url.toList, '!' ≤ c ∧ c ≤ '~' := by
      rw [htext, List.forall_mem_append]
      exact ⟨printable_of_mem_scheme hscheme, hrest⟩
    rcases compress_of_pieces hprintable hpieces with ⟨hroom, address, hok⟩ | ⟨hfull, herror⟩
    · rw [hok]
      exact ⟨nofun, iff_of_false nofun (Nat.not_lt.mpr hroom)⟩
    · rw [herror]
      exact ⟨fun fault hfault => (Except.error.inj hfault).symm, iff_of_true rfl hfull⟩

/-- The longer of two endings is taken, and the other one where no slash follows. -/
theorem compresses_three_pieces :
    Pieces ['h', 't', 't', 'p', ':', '/', '/', 'a', '.', 'i', 'n', 'f', 'o', '/', '.', 'i', 'n',
        'f', 'o'] [['a'], ['.', 'i', 'n', 'f', 'o', '/'], ['.', 'i', 'n', 'f', 'o']] ∧
      compress (.ofList ['h', 't', 't', 'p', ':', '/', '/', 'a', '.', 'i', 'n', 'f', 'o', '/', '.',
        'i', 'n', 'f', 'o']) ≠ .error .invalidLength := by
  have hpieces : Pieces ['h', 't', 't', 'p', ':', '/', '/', 'a', '.', 'i', 'n', 'f', 'o', '/', '.',
      'i', 'n', 'f', 'o'] [['a'], ['.', 'i', 'n', 'f', 'o', '/'], ['.', 'i', 'n', 'f', 'o']] := by
    refine ⟨['h', 't', 't', 'p', ':', '/', '/'], _, by decide, rfl, by decide, ?_⟩
    refine .character (by decide) ?_
    refine @Cut.ending ['.', 'i', 'n', 'f', 'o', '/'] _ _ (by decide) (by decide) ?_
    exact @Cut.ending ['.', 'i', 'n', 'f', 'o'] [] _ (by decide) (by decide) .done
  refine ⟨hpieces, fun herror => ?_⟩
  have hroom := (compresses_by_pieces (.ofList ['h', 't', 't', 'p', ':', '/', '/', 'a', '.', 'i',
    'n', 'f', 'o', '/', '.', 'i', 'n', 'f', 'o'])).2.2 ['h', 't', 't', 'p', ':', '/', '/']
    (by decide) _ String.toList_ofList (printable_of_all (by decide))
  rw [String.toList_ofList] at hroom
  exact absurd ((hroom.2 _ hpieces).2.mp herror) (by decide)

end Url

end Beacon
