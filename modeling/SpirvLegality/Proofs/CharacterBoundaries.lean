import SpirvLegality.Proofs.Progress

/-!
# Where a scanner stops within a text

A scanner that has not met a malformed token stands between two characters of the text
(`Scanner.StandsIn.next`). A reader asks for no token behind a malformed one
(`Progress.not_malformed_of_mem_dropLast`), so every scanner that it asks stands between two
characters (`Progress.standsIn_of_mem_asked`). There a quoted text is UTF-8, and a character that
begins no token is shown whole.
-/

namespace SpirvLegality.Listing

/-- A character of a text begins at an offset. -/
def BeginsAt (text : String) (offset : Nat) (c : Char) : Prop :=
  ∃ before after : String, text = before ++ String.singleton c ++ after ∧
    before.utf8ByteSize = offset

/-- A quoted text in characters is never invalid. -/
theorem scan_ne_invalidUtf8 (c : Char) (rest : List Char) :
    (scan c rest).1 ≠ .malformed .invalidUtf8 := by
  have hstring : (scanString [] 0 rest).1 ≠ .malformed .invalidUtf8 := by
    obtain hquoted | ⟨text, hquoted⟩ := scanString_cases [] 0 rest <;> simp [hquoted]
  have hinteger (base : Nat) (digits : List Char) :
      integerOf base digits ≠ .malformed .invalidUtf8 := by
    obtain ⟨value, hvalue⟩ | hvalue := integerOf_cases base digits <;> simp [hvalue]
  rw [scan_eq]
  repeat' split
  · nofun
  · nofun
  · nofun
  · nofun
  · exact hstring
  · exact hinteger 16 _
  · exact hinteger 10 _
  · nofun
  · nofun

namespace Scanner

/-- A scanner has read the beginning of a text up to a place between two characters. -/
def StandsIn (s : Scanner) (text : String) : Prop :=
  ∃ before after, text.toList = before ++ after ∧ s = ⟨utf8 after, Position.advance {} before⟩

/-- The offset at which the next token begins. -/
def tokenOffset (s : Scanner) : Nat := s.skipTrivia.place.offset

theorem standsIn_ofString (text : String) : (ofString text).StandsIn text :=
  ⟨[], text.toList, rfl, congrArg (Scanner.mk · {}) (sourceBytes_eq text)⟩

/-- The kind of the token that begins with a character is the same in the bytes of a text. -/
theorem kind_next_utf8 (p : Position) {text : List Char} {c : Char} {rest : List Char}
    (h : text.drop (blankLength text) = c :: rest) :
    (Scanner.mk (utf8 text) p).next.1.kind = (scan c rest).1 := by
  rcases Nat.lt_or_ge c.toNat 128 with hlt | hle
  · rw [next_utf8 h hlt]
    rfl
  · obtain ⟨b, tail, hbytes, -, -⟩ := exists_bytes c
    have hb : 128 ≤ b.toNat := le_of_mem_utf8EncodeChar hle (hbytes ▸ List.mem_cons_self)
    have hskip := skipTrivia_utf8 p text
    rw [h, utf8_cons, hbytes, List.cons_append] at hskip
    rw [next_of_rest_eq_cons (congrArg Scanner.rest hskip), scanByte_of_le hb,
      shownChar_utf8 hbytes, scan_of_le hle]
    rfl

/-- A token keeps its offset in a word of 32 bits. -/
theorem start_next (s : Scanner) : s.next.1.span.start.toNat = s.tokenOffset % 2 ^ 32 := by
  cases hrest : s.skipTrivia.rest with
  | nil =>
      rw [next_of_rest_eq_nil hrest]
      exact UInt32.toNat_ofNat'
  | cons b rest =>
      rw [next_of_rest_eq_cons hrest]
      exact UInt32.toNat_ofNat'

/-- A scanner between two characters passes over blanks and comments to a place between two
characters, where the text ends or a token begins as it begins in characters. -/
theorem StandsIn.exists_token {text : String} {s : Scanner} (h : s.StandsIn text) :
    ∃ before after, text.toList = before ++ after ∧
      s.tokenOffset = (String.ofList before).utf8ByteSize ∧
      (after = [] ∧ s.next.1.kind = .stop ∨
        ∃ c rest, after = c :: rest ∧ s.next.1.kind = (scan c rest).1) := by
  obtain ⟨before, after, htext, rfl⟩ := h
  refine ⟨before ++ after.take (blankLength after), after.drop (blankLength after), ?_, ?_, ?_⟩
  · rw [List.append_assoc, List.take_append_drop, htext]
  · rw [tokenOffset, skipTrivia_utf8, tokenStart, ← Position.advance_append,
      Position.offset_advance, ← length_sourceBytes, sourceBytes_eq, String.toList_ofList]
    exact Nat.zero_add _
  · cases hdrop : after.drop (blankLength after) with
    | nil =>
        have hskip := skipTrivia_utf8 (Position.advance {} before) after
        rw [hdrop] at hskip
        rw [next_of_rest_eq_nil (congrArg Scanner.rest hskip)]
        exact Or.inl ⟨rfl, rfl⟩
    | cons c rest => exact Or.inr ⟨c, rest, rfl, kind_next_utf8 _ hdrop⟩

/-- Behind a token that is not malformed, a scanner stands between two characters again. -/
theorem StandsIn.next {text : String} {s : Scanner} (h : s.StandsIn text)
    (hkind : ∀ e, s.next.1.kind ≠ .malformed e) : s.next.2.StandsIn text := by
  obtain ⟨before, after, htext, rfl⟩ := h
  have hsplit := List.take_append_drop (blankLength after) after
  cases hdrop : after.drop (blankLength after) with
  | nil =>
      have hskip := skipTrivia_utf8 (Position.advance {} before) after
      rw [hdrop] at hskip hsplit
      rw [next_of_rest_eq_nil (congrArg Scanner.rest hskip), hskip, tokenStart,
        ← Position.advance_append]
      refine ⟨_, [], ?_, rfl⟩
      rw [htext, List.append_assoc, hsplit]
  | cons c rest =>
      rw [kind_next_utf8 _ hdrop] at hkind
      have hlt : c.toNat < 128 := by
        refine Nat.lt_of_not_le fun hle => hkind (.unexpected c) ?_
        rw [scan_of_le hle]
      rw [next_utf8 hdrop hlt, tokenStop, tokenStart, ← Position.advance_append,
        ← Position.advance_append]
      rw [hdrop] at hsplit
      refine ⟨_, rest.drop (scan c rest).2, ?_, rfl⟩
      rw [htext, List.append_assoc, List.append_assoc, List.cons_append, List.take_append_drop,
        hsplit]

variable {text : String} {s : Scanner}

/-- A token begins between two characters. -/
theorem StandsIn.isValid_tokenOffset (h : s.StandsIn text) :
    String.Pos.Raw.IsValid text ⟨s.tokenOffset⟩ := by
  obtain ⟨before, after, htext, hoffset, -⟩ := h.exists_token
  refine String.Pos.Raw.isValid_iff_exists_append.2
    ⟨String.ofList before, String.ofList after, ?_, congrArg String.Pos.Raw.mk hoffset⟩
  rw [← String.ofList_append, ← htext, String.ofList_toList]

/-- A quoted text is UTF-8. -/
theorem StandsIn.kind_next_ne_invalidUtf8 (h : s.StandsIn text) :
    s.next.1.kind ≠ .malformed .invalidUtf8 := by
  obtain ⟨before, after, -, -, ⟨-, hkind⟩ | ⟨c, rest, -, hkind⟩⟩ := h.exists_token
  · rw [hkind]
    nofun
  · rw [hkind]
    exact scan_ne_invalidUtf8 c rest

/-- A character that begins no token is shown whole. -/
theorem StandsIn.beginsAt_of_unexpected (h : s.StandsIn text) {c : Char}
    (hc : s.next.1.kind = .malformed (.unexpected c)) : BeginsAt text s.tokenOffset c := by
  obtain ⟨before, after, htext, hoffset, ⟨-, hkind⟩ | ⟨d, rest, hafter, hkind⟩⟩ := h.exists_token
  · rw [hkind] at hc
    cases hc
  · have hscan : scan d rest = (.malformed (.unexpected c), (scan d rest).2) :=
      Prod.ext (hkind.symm.trans hc) rfl
    obtain ⟨rfl, -⟩ := eq_of_scan_eq_unexpected hscan
    refine ⟨String.ofList before, String.ofList rest, ?_, hoffset.symm⟩
    rw [← String.toList_inj, htext, hafter]
    simp

end Scanner

/-- What is wrong with the malformed token that an error shows. -/
def ReadError.lexical? : ReadError → Option LexicalError
  | .missingEquals _ _ (.malformed e) | .missingOpcode _ (.malformed e) |
    .malformedOperand _ e | .unexpectedOperand _ (.malformed e) => some e
  | _ => none

namespace Progress

/-! ## The tokens that are asked for -/

/-- Asks for tokens and takes them as `run` does, and keeps the scanners that were asked, the first
one first. -/
def logged : Nat → Progress → Scanner → List Scanner × Option (Except ReadError Module)
  | 0, _, _ => ([], none)
  | n + 1, p, s =>
    match p.step s.next.1 with
    | .error e => ([s], some (.error e))
    | .ok p =>
      if s.next.1.kind = .stop then ([s], some p.finish)
      else
        let (asked, result) := logged n p s.next.2
        (s :: asked, result)

/-- Keeping the scanners does not change what is read. -/
theorem snd_logged (n : Nat) (p : Progress) (s : Scanner) : (logged n p s).2 = run n p s := by
  induction n generalizing p s with
  | zero => rfl
  | succ n ih =>
      rw [logged, run]
      cases p.step s.next.1 with
      | error e => rfl
      | ok next =>
          dsimp only
          split
          · rfl
          · exact ih next s.next.2

/-- The scanners that are asked for a token when a text is read, if so many tokens may be asked
for. -/
def asked (n : Nat) (p : Progress) (s : Scanner) : List Scanner := (logged n p s).1

/-- A token that is taken is not malformed. -/
theorem not_malformed_of_step {p next : Progress} {t : Token} (h : p.step t = .ok next)
    (e : LexicalError) : t.kind ≠ .malformed e := by
  intro ht
  obtain ⟨err, hstep, -⟩ := step_malformed t t ht ht rfl p
  rw [hstep] at h
  cases h

/-- What holds of the first scanner, and behind each token that is not malformed, holds of every
scanner that is asked. -/
theorem forall_mem_asked {I : Scanner → Prop}
    (hnext : ∀ s, I s → (∀ e, s.next.1.kind ≠ .malformed e) → I s.next.2) {n : Nat} {p : Progress}
    {s : Scanner} (h : I s) : ∀ a ∈ asked n p s, I a := by
  unfold asked
  fun_induction logged n p s with
  | case1 p s => nofun
  | case2 n p s e hstep => exact List.forall_mem_singleton.2 h
  | case3 n p s next hstep hstop => exact List.forall_mem_singleton.2 h
  | case4 n p s next hstep hstop asked result hrest ih =>
      rw [hrest] at ih
      exact List.forall_mem_cons.2 ⟨h, ih (hnext s h (not_malformed_of_step hstep))⟩

/-- No token is asked for behind a malformed one. -/
theorem not_malformed_of_mem_dropLast {n : Nat} {p : Progress} {s a : Scanner}
    (ha : a ∈ (asked n p s).dropLast) (e : LexicalError) : a.next.1.kind ≠ .malformed e := by
  unfold asked at ha
  fun_induction logged n p s with
  | case1 p s => cases ha
  | case2 n p s cause hstep => cases ha
  | case3 n p s next hstep hstop => cases ha
  | case4 n p s next hstep hstop asked result hrest ih =>
      rw [hrest] at ih
      cases asked with
      | nil => cases ha
      | cons b asked =>
          rw [List.dropLast_cons_cons, List.mem_cons] at ha
          rcases ha with rfl | ha
          · exact not_malformed_of_step hstep e
          · exact ih ha

/-- An instruction that cannot be placed is no matter of a malformed token. -/
theorem lexical?_of_map_place {units : UnitBuilder} {line : Nat} {name : Option String}
    {inst : Instruction} {f : UnitBuilder → Progress} {e : ReadError}
    (h : (units.place line name inst).map f = .error e) : e.lexical? = none := by
  unfold UnitBuilder.place at h
  split at h
  · cases h
    rfl
  · cases h
  · cases h
    rfl
  · cases h
  · cases h
  · cases h

/-- Neither is a function that was not ended. -/
theorem lexical?_of_finish {p : Progress} {e : ReadError} (h : p.finish = .error e) :
    e.lexical? = none := by
  rw [finish, UnitBuilder.finish] at h
  split at h
  · cases h
    rfl
  · cases h

variable {p : Progress} {first t : Token} {result : Option ValueId} {e : ReadError}
  {cause : LexicalError}

theorem kind_of_takeOpcode (h : p.takeOpcode first result t = .error e)
    (hcause : e.lexical? = some cause) : t.kind = .malformed cause := by
  unfold takeOpcode at h
  split at h
  · split at h
    · cases h
      cases hcause
    · cases h
  · cases h
    cases hkind : t.kind <;> simp_all [ReadError.lexical?]

theorem kind_of_takeOperand {opcode : Opcode} {before : List Operand}
    (h : p.takeOperand first result opcode before t = .error e)
    (hcause : e.lexical? = some cause) : t.kind = .malformed cause := by
  unfold takeOperand at h
  split at h
  · rw [lexical?_of_map_place h] at hcause
    cases hcause
  · rw [lexical?_of_map_place h] at hcause
    cases hcause
  · cases h
  · cases h
  · cases h
  · cases h
    cases hcause
    assumption
  · cases h
    cases hkind : t.kind <;> simp_all [ReadError.lexical?]

/-- The error of a token that is not taken shows a malformed token only if it is this one. -/
theorem kind_of_lexical? (h : p.step t = .error e) (hcause : e.lexical? = some cause) :
    t.kind = .malformed cause := by
  obtain ⟨names, units, stage⟩ := p
  cases stage with
  | start =>
      rw [step] at h
      dsimp only at h
      split at h
      · cases h
      · cases h
      · cases h
      · exact kind_of_takeOpcode h hcause
  | named first name =>
      rw [step_named] at h
      split at h
      · cases h
      · cases h
        cases hkind : t.kind <;> simp_all [ReadError.lexical?]
  | equated first name =>
      rw [step_equated] at h
      split at h
      · cases h
        cases hcause
      · exact kind_of_takeOpcode h hcause
  | operands first result opcode before => exact kind_of_takeOperand h hcause

/-- A malformed token that an error shows is the one that was asked for last. -/
theorem exists_last_of_lexical? {n : Nat} {p : Progress} {s : Scanner} {e : ReadError}
    {cause : LexicalError} (h : (logged n p s).2 = some (.error e))
    (hcause : e.lexical? = some cause) :
    ∃ a ∈ (asked n p s).getLast?, a.next.1.kind = .malformed cause := by
  unfold asked
  fun_induction logged n p s with
  | case1 p s => cases h
  | case2 n p s e hstep =>
      cases h
      exact ⟨s, rfl, kind_of_lexical? hstep hcause⟩
  | case3 n p s next hstep hstop =>
      rw [lexical?_of_finish (Option.some.inj h)] at hcause
      cases hcause
  | case4 n p s next hstep hstop asked result hrest ih =>
      rw [hrest] at ih
      obtain ⟨a, ha, hkind⟩ := ih h
      refine ⟨a, ?_, hkind⟩
      rw [List.getLast?_cons, ha]
      rfl

/-- Every scanner that is asked for a token of a text stands between two characters. -/
theorem standsIn_of_mem_asked {text : String} {n : Nat} {s : Scanner}
    (hs : s ∈ asked n {} (.ofString text)) : s.StandsIn text :=
  forall_mem_asked (fun _ => Scanner.StandsIn.next) (Scanner.standsIn_ofString text) s hs

/-- The scanners that `run` asks for a token of a text: none of them has met a malformed token
before. Each finds its token at a place between two characters, never reports that a quoted text is
not UTF-8, and shows a character that begins no token whole. So does the error, if it shows a
malformed token. What `run` reads is what `Module.parse` does. -/
theorem asked_between_characters (text : String) (n : Nat) :
    (logged n {} (.ofString text)).2 = run n {} (.ofString text) ∧
      (∀ r, run n {} (.ofString text) = some r → r = Module.parse text) ∧
      (∀ s ∈ (asked n {} (.ofString text)).dropLast, ∀ e, s.next.1.kind ≠ .malformed e) ∧
      (∀ s ∈ asked n {} (.ofString text),
        String.Pos.Raw.IsValid text ⟨s.tokenOffset⟩ ∧
          s.next.1.span.start.toNat = s.tokenOffset % 2 ^ 32 ∧
          s.next.1.kind ≠ .malformed .invalidUtf8 ∧
          ∀ c, s.next.1.kind = .malformed (.unexpected c) → BeginsAt text s.tokenOffset c) ∧
      ∀ e cause, run n {} (.ofString text) = some (.error e) → e.lexical? = some cause →
        cause ≠ .invalidUtf8 ∧
          ∃ s ∈ (asked n {} (.ofString text)).getLast?, s.next.1.kind = .malformed cause ∧
            ∀ c, cause = .unexpected c → BeginsAt text s.tokenOffset c := by
  refine ⟨snd_logged n _ _, fun r hrun => eq_parse_of_run hrun,
    fun s hs e => not_malformed_of_mem_dropLast hs e, fun s hs => ?_,
    fun e cause hrun hcause => ?_⟩
  · have hstands := standsIn_of_mem_asked hs
    exact ⟨hstands.isValid_tokenOffset, s.start_next, hstands.kind_next_ne_invalidUtf8,
      fun c hc => hstands.beginsAt_of_unexpected hc⟩
  · rw [← snd_logged] at hrun
    obtain ⟨s, hs, hkind⟩ := exists_last_of_lexical? hrun hcause
    have hstands := standsIn_of_mem_asked (List.mem_of_getLast? hs)
    refine ⟨?_, s, hs, hkind, ?_⟩
    · rintro rfl
      exact hstands.kind_next_ne_invalidUtf8 hkind
    · rintro c rfl
      exact hstands.beginsAt_of_unexpected hkind

/-- A name behind which a stray character of three bytes stands for the equals sign. -/
theorem asked_between_characters_stray :
    run 3 {} (.ofString "%a 日=") =
        some (.error (.missingEquals 1 "a" (.malformed (.unexpected '日')))) ∧
      Module.parse "%a 日=" = .error (.missingEquals 1 "a" (.malformed (.unexpected '日'))) ∧
      ∃ s ∈ (asked 3 {} (.ofString "%a 日=")).getLast?,
        s.next.1.kind = .malformed (.unexpected '日') ∧ BeginsAt "%a 日=" s.tokenOffset '日' := by
  have htokens : (Scanner.ofString "%a 日=").take 3 =
      [⟨.id "a", ⟨0, 2⟩, 1⟩, ⟨.malformed (.unexpected '日'), ⟨3, 4⟩, 1⟩,
        ⟨.malformed (.unexpected (Char.ofNat 0x97)), ⟨4, 5⟩, 1⟩] := by
    decide +kernel
  have hrun : run 3 {} (.ofString "%a 日=") =
      some (.error (.missingEquals 1 "a" (.malformed (.unexpected '日')))) := by
    rw [run_eq_read, htokens]
    rfl
  obtain ⟨-, hparse, -, -, herror⟩ := asked_between_characters "%a 日=" 3
  obtain ⟨-, s, hs, hkind, hshown⟩ := herror _ _ hrun rfl
  exact ⟨hrun, (hparse _ hrun).symm, s, hs, hkind, hshown _ rfl⟩

end Progress

end SpirvLegality.Listing
