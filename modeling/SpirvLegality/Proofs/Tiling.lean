import Mathlib.Algebra.Group.Nat.Defs
import SpirvLegality.Proofs.Encoding

/-!
# Tokens tile a source

A scanner that stands at some offset of a source reads blanks and at most one comment, then at least
one byte of a token unless the source ends (`Scanner.next_follows`). So the tokens that it finds
follow each other without gaps other than blanks and comments, up to the end of the source
(`Tiles`), and it finds the end after no more tokens than there are bytes (`Scanner.exists_tiles`).
-/

namespace SpirvLegality.Listing

/-- Blanks and possibly a comment behind them. -/
def Trivia (bytes : List UInt8) : Prop :=
  ∃ blanks comment, bytes = blanks ++ comment ∧
    (∀ b ∈ blanks, b = ' '.toUInt8 ∨ b = '\t'.toUInt8 ∨ b = '\r'.toUInt8) ∧
    (comment = [] ∨ '\n'.toUInt8 ∉ comment ∧ ∃ rest,
      comment = ';'.toUInt8 :: rest ∨ comment = '/'.toUInt8 :: '/'.toUInt8 :: rest)

/-- A token stands in a source behind what was read up to an offset: before it there are only blanks
and a comment, and its line is the one on which it begins. -/
structure Token.Follows (t : Token) (source : List UInt8) (offset : Nat) : Prop where
  le_start : offset ≤ t.span.start.toNat
  stop_le : t.span.stop.toNat ≤ source.length
  trivia : Trivia ((source.take t.span.start.toNat).drop offset)
  line_eq : t.line = 1 + (source.take t.span.start.toNat).count '\n'.toUInt8

/-- Tokens that cover a source from an offset on: each follows the one before it and has at least
one byte, except for the last one, which marks the end of the source. -/
inductive Tiles (source : List UInt8) : Nat → List Token → Prop
  | stop {offset : Nat} {t : Token} (h : t.Follows source offset) (hkind : t.kind = .stop)
      (hstart : t.span.start.toNat = source.length) (hstop : t.span.stop.toNat = source.length) :
      Tiles source offset [t]
  | word {offset : Nat} {t : Token} {rest : List Token} (h : t.Follows source offset)
      (hkind : t.kind ≠ .stop) (hspan : t.span.start < t.span.stop)
      (hrest : Tiles source t.span.stop.toNat rest) : Tiles source offset (t :: rest)

/-- The end is marked. -/
theorem Tiles.exists_stop {source : List UInt8} {offset : Nat} {tokens : List Token}
    (h : Tiles source offset tokens) : ∃ t ∈ tokens, t.kind = .stop := by
  induction h with
  | stop _ hkind => exact ⟨_, List.mem_cons_self, hkind⟩
  | word _ _ _ _ ih =>
      obtain ⟨t, ht, hstop⟩ := ih
      exact ⟨t, List.mem_cons_of_mem _ ht, hstop⟩

namespace Scanner

variable {s next : Scanner} {bytes source : List UInt8}

/-- A scanner goes on over some bytes. -/
structure Reads (s : Scanner) (bytes : List UInt8) (next : Scanner) : Prop where
  rest_eq : s.rest = bytes ++ next.rest
  place_eq : next.place = s.place.advanceBytes bytes

theorem Reads.append {last : Scanner} {more : List UInt8} (h : s.Reads bytes next)
    (hmore : next.Reads more last) : s.Reads (bytes ++ more) last where
  rest_eq := by rw [h.rest_eq, hmore.rest_eq, List.append_assoc]
  place_eq := by
    rw [hmore.place_eq, h.place_eq, Position.advanceBytes, Position.advanceBytes,
      ← List.foldl_append]
    rfl

theorem reads_skip (s : Scanner) (n : Nat) : s.Reads (s.rest.take n) (s.skip n) where
  rest_eq := (List.take_append_drop n s.rest).symm
  place_eq := rfl

theorem reads_skipWhile (s : Scanner) (test : UInt8 → Bool) :
    s.Reads (s.rest.takeWhile test) (s.skipWhile test) where
  rest_eq := List.takeWhile_append_dropWhile.symm
  place_eq := rfl

/-- The byte behind those that pass a test fails it. -/
theorem head?_rest_skipWhile {test : UInt8 → Bool} {b : UInt8}
    (hb : (s.skipWhile test).rest.head? = some b) : test b = false := by
  have hhead := List.head?_dropWhile_not test s.rest
  rw [show (s.rest.dropWhile test).head? = some b from hb] at hhead
  exact hhead

/-- At the end of a line there is nothing to pass over. -/
theorem skipTrivia_of_endsLine (h : ∀ b, s.rest.head? = some b → b = '\n'.toUInt8) :
    s.skipTrivia = s := by
  have hwhile : s.skipWhile isBlankByte = s := by
    obtain ⟨rest, place⟩ := s
    cases rest with
    | nil => rfl
    | cons b rest =>
        have hblank : ¬ isBlankByte b = true := by
          rw [h b rfl]
          decide
        rw [skipWhile, List.takeWhile_cons_of_neg hblank, List.dropWhile_cons_of_neg hblank]
        rfl
  have hcomment : ¬ beginsComment s.rest = true := by
    cases hrest : s.rest with
    | nil => decide
    | cons b rest =>
        rw [hrest] at h
        rw [h b rfl]
        exact Bool.false_ne_true
  rw [skipTrivia, hwhile, dif_neg hcomment]

/-- Behind a comment there is nothing to pass over. -/
theorem skipTrivia_skipWhile (s : Scanner) :
    (s.skipWhile isLineByte).skipTrivia = s.skipWhile isLineByte :=
  skipTrivia_of_endsLine fun b hb => by simpa [isLineByte] using head?_rest_skipWhile hb

/-- A comment begins with a semicolon or with two slashes. -/
theorem exists_comment {bytes : List UInt8} (h : beginsComment bytes = true) :
    ∃ rest, bytes.takeWhile isLineByte = ';'.toUInt8 :: rest ∨
      bytes.takeWhile isLineByte = '/'.toUInt8 :: '/'.toUInt8 :: rest := by
  cases bytes with
  | nil => cases h
  | cons b rest =>
      simp only [beginsComment, Bool.or_eq_true, Bool.and_eq_true, decide_eq_true_eq] at h
      rcases h with rfl | ⟨rfl, hrest⟩
      · exact ⟨_, Or.inl (List.takeWhile_cons_of_pos (by decide))⟩
      · obtain ⟨others, rfl⟩ := List.head?_eq_some_iff.1 hrest
        refine ⟨others.takeWhile isLineByte, Or.inr ?_⟩
        rw [List.takeWhile_cons_of_pos (by decide), List.takeWhile_cons_of_pos (by decide)]

/-- What stands before a token are blanks and a comment. -/
theorem exists_trivia (s : Scanner) : ∃ bytes, Trivia bytes ∧ s.Reads bytes s.skipTrivia := by
  have hblanks := s.reads_skipWhile isBlankByte
  have hblank : ∀ b ∈ s.rest.takeWhile isBlankByte,
      b = ' '.toUInt8 ∨ b = '\t'.toUInt8 ∨ b = '\r'.toUInt8 := by
    intro b hb
    have hb : isBlankByte b = true := List.mem_takeWhile_imp hb
    simp only [isBlankByte, isInlineBlank, Bool.or_eq_true, decide_eq_true_eq] at hb
    rcases hb with (hb | hb) | hb
    · exact Or.inl ((ofUInt8_eq_iff (by decide)).1 hb)
    · exact Or.inr (Or.inl ((ofUInt8_eq_iff (by decide)).1 hb))
    · exact Or.inr (Or.inr ((ofUInt8_eq_iff (by decide)).1 hb))
  rw [skipTrivia]
  by_cases hcomment : beginsComment (s.skipWhile isBlankByte).rest = true
  · rw [dif_pos hcomment, skipTrivia_skipWhile]
    refine ⟨_, ⟨_, _, rfl, hblank, Or.inr ⟨?_, ?_⟩⟩,
      hblanks.append ((s.skipWhile isBlankByte).reads_skipWhile isLineByte)⟩
    · intro hmem
      have hline : isLineByte '\n'.toUInt8 = true := List.mem_takeWhile_imp hmem
      exact absurd hline (by decide)
    · exact exists_comment hcomment
  · rw [dif_neg hcomment]
    exact ⟨_, ⟨_, [], (List.append_nil _).symm, hblank, Or.inl rfl⟩, hblanks⟩

/-- A scanner that has read the beginning of a source stands behind it. -/
theorem Reads.of_start {s : Scanner} {read : List UInt8} (h : Reads ⟨source, {}⟩ read s) :
    source = read ++ s.rest ∧ s.place.offset = read.length ∧
      s.place.line = 1 + read.count '\n'.toUInt8 := by
  refine ⟨h.rest_eq, ?_, ?_⟩
  · rw [h.place_eq, Position.offset_advanceBytes]
    exact Nat.zero_add _
  · rw [h.place_eq, Position.line_advanceBytes]

/-- An offset in a short source fits into a word. -/
theorem toNat_ofNat_length {read rest : List UInt8} (h : (read ++ rest).length < 2 ^ 32) :
    (UInt32.ofNat read.length).toNat = read.length := by
  rw [List.length_append] at h
  exact UInt32.toNat_ofNat_of_lt (show read.length < 2 ^ 32 by omega)

theorem scanByte_ne_stop (b : UInt8) (rest : List UInt8) : (scanByte b rest).1 ≠ .stop := by
  have hstring (content : Option (List UInt8)) : stringOf content ≠ .stop := by
    unfold stringOf
    repeat' split
    all_goals nofun
  unfold scanByte
  simp only
  repeat' split
  · nofun
  · nofun
  · nofun
  · nofun
  · exact hstring _
  · exact integerOf_ne_stop 16 _
  · exact integerOf_ne_stop 10 _
  · nofun
  · nofun

/-- Where only blanks and a comment are left, the end comes next. -/
theorem next_of_rest_eq_nil (h : s.skipTrivia.rest = []) :
    s.next = (.between .stop s.skipTrivia.place s.skipTrivia.place, s.skipTrivia) := by
  rw [next, h]

/-- Otherwise the token that begins with the next byte comes next. -/
theorem next_of_rest_eq_cons {b : UInt8} {rest : List UInt8} (h : s.skipTrivia.rest = b :: rest) :
    s.next = (.between (scanByte b rest).1 s.skipTrivia.place
      (s.skipTrivia.skip ((scanByte b rest).2 + 1)).place,
        s.skipTrivia.skip ((scanByte b rest).2 + 1)) := by
  rw [next, h]

/-- The next token marks the end, or the scanner goes on. -/
theorem next_kind_eq_stop_or (s : Scanner) :
    s.next.1.kind = .stop ∨ s.next.2.rest.length < s.rest.length := by
  obtain ⟨trivia, -, hskip⟩ := s.exists_trivia
  cases hrest : s.skipTrivia.rest with
  | nil =>
      rw [next_of_rest_eq_nil hrest]
      exact Or.inl rfl
  | cons b rest =>
      have hlengths := congrArg List.length hskip.rest_eq
      rw [List.length_append, hrest, List.length_cons] at hlengths
      rw [next_of_rest_eq_cons hrest]
      refine Or.inr ?_
      show (s.skipTrivia.rest.drop ((scanByte b rest).2 + 1)).length < s.rest.length
      rw [hrest, List.drop_succ_cons, List.length_drop]
      omega

/-- Asking for more tokens finds the same ones first. -/
theorem take_isPrefix {n m : Nat} (h : n ≤ m) (s : Scanner) : s.take n <+: s.take m := by
  induction n generalizing m s with
  | zero => exact List.nil_prefix
  | succ n ih =>
      obtain ⟨m, rfl⟩ := Nat.exists_eq_succ_of_ne_zero (Nat.ne_zero_of_lt h)
      rw [take, take]
      exact (List.prefix_cons_inj _).2 (ih (Nat.le_of_succ_le_succ h) s.next.2)

/-- The end is found after no more tokens than there are bytes. -/
theorem exists_stop (s : Scanner) :
    ∃ n ≤ s.rest.length, ∃ t ∈ s.take (n + 1), t.kind = .stop := by
  induction hrest : s.rest.length using Nat.strong_induction_on generalizing s with
  | _ length ih =>
      rcases s.next_kind_eq_stop_or with hstop | hlt
      · exact ⟨0, Nat.zero_le _, _, List.mem_cons_self, hstop⟩
      · obtain ⟨n, hn, t, ht, hstop⟩ := ih _ (hrest ▸ hlt) s.next.2 rfl
        exact ⟨n + 1, by omega, t, List.mem_cons_of_mem _ ht, hstop⟩

/-- The offset of a scanner in a short source is that of what it has read. -/
theorem Reads.toNat_offset {s : Scanner} {read : List UInt8} (hlength : source.length < 2 ^ 32)
    (h : Reads ⟨source, {}⟩ read s) : (UInt32.ofNat s.place.offset).toNat = read.length := by
  rw [h.of_start.2.1]
  exact toNat_ofNat_length (h.of_start.1 ▸ hlength)

/-- A token that begins behind the blanks and the comment after what was read follows it. -/
theorem Reads.follows_between {s : Scanner} {read trivia : List UInt8}
    (hlength : source.length < 2 ^ 32) (h : Reads ⟨source, {}⟩ (read ++ trivia) s)
    (htrivia : Trivia trivia) (kind : TokenKind) {stop : Position}
    (hstop : (UInt32.ofNat stop.offset).toNat ≤ source.length) :
    (Token.between kind s.place stop).Follows source read.length := by
  obtain ⟨hsource, -, hline⟩ := h.of_start
  have hword := h.toNat_offset hlength
  have htake : source.take (read ++ trivia).length = read ++ trivia := by
    conv => lhs; rw [hsource]
    exact List.take_left
  refine ⟨?_, hstop, ?_, ?_⟩
  · show read.length ≤ (UInt32.ofNat s.place.offset).toNat
    rw [hword, List.length_append]
    exact Nat.le_add_right _ _
  · show Trivia ((source.take (UInt32.ofNat s.place.offset).toNat).drop read.length)
    rw [hword, htake, List.drop_left]
    exact htrivia
  · show s.place.line = 1 + (source.take (UInt32.ofNat s.place.offset).toNat).count _
    rw [hword, htake, hline]

/-- The next token of a scanner that has read the beginning of a source follows what was read. The
scanner goes on behind the token, which has at least one byte unless the source has ended. -/
theorem next_follows {read : List UInt8} (hlength : source.length < 2 ^ 32)
    (h : Reads ⟨source, {}⟩ read s) :
    s.next.1.Follows source read.length ∧
      ∃ more, Reads ⟨source, {}⟩ more s.next.2 ∧ s.next.1.span.stop.toNat = more.length ∧
        (s.next.1.kind = .stop ∧ s.next.1.span.start.toNat = source.length ∧
            s.next.1.span.stop.toNat = source.length ∨
          s.next.1.kind ≠ .stop ∧ s.next.1.span.start < s.next.1.span.stop) := by
  obtain ⟨trivia, htrivia, hskip⟩ := s.exists_trivia
  have hstart := h.append hskip
  have hword := hstart.toNat_offset hlength
  cases hrest : s.skipTrivia.rest with
  | nil =>
      have hsource := hstart.of_start.1
      rw [hrest, List.append_nil] at hsource
      rw [next_of_rest_eq_nil hrest]
      have hend := hword.trans (congrArg List.length hsource).symm
      exact ⟨hstart.follows_between hlength htrivia .stop (Nat.le_of_eq hend), read ++ trivia,
        hstart, hword, Or.inl ⟨rfl, hend, hend⟩⟩
  | cons b rest =>
      have hreads := hstart.append (s.skipTrivia.reads_skip ((scanByte b rest).2 + 1))
      have hstop := hreads.toNat_offset hlength
      have hle := (List.prefix_append _ _).length_le.trans_eq
        (congrArg List.length hreads.of_start.1.symm)
      rw [hrest, List.take_succ_cons] at hreads hstop hle
      rw [next_of_rest_eq_cons hrest]
      refine ⟨hstart.follows_between hlength htrivia _ (hstop.trans_le hle), _, hreads, hstop,
        Or.inr ⟨scanByte_ne_stop b rest, UInt32.lt_iff_toNat_lt.2 ?_⟩⟩
      show (UInt32.ofNat s.skipTrivia.place.offset).toNat <
        (UInt32.ofNat (s.skipTrivia.skip ((scanByte b rest).2 + 1)).place.offset).toNat
      rw [hword, hstop]
      simp only [List.length_append, List.length_cons]
      omega

/-- A scanner that has read the beginning of a source covers the rest of it with tokens, and finds
its end after no more tokens than there are bytes left. -/
theorem exists_tiles {read : List UInt8} (hlength : source.length < 2 ^ 32)
    (h : Reads ⟨source, {}⟩ read s) :
    ∃ n ≤ s.rest.length, Tiles source read.length (s.take (n + 1)) := by
  induction hrest : s.rest.length using Nat.strong_induction_on generalizing s read with
  | _ length ih =>
      obtain ⟨hfollows, more, hreads, hstop, hend | ⟨hkind, hlt⟩⟩ := next_follows hlength h
      · exact ⟨0, Nat.zero_le _, .stop hfollows hend.1 hend.2.1 hend.2.2⟩
      · have hshorter := s.next_kind_eq_stop_or.resolve_left hkind
        obtain ⟨n, hn, htiles⟩ := ih _ (hrest ▸ hshorter) hreads rfl
        rw [← hstop] at htiles
        exact ⟨n + 1, by omega, .word hfollows hkind hlt htiles⟩

end Scanner

end SpirvLegality.Listing
