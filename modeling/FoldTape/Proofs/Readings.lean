import FoldTape.Files
import FoldTape.Proofs.Folding.Commentary
import FoldTape.Proofs.Text.LineEnds
import FoldTape.Proofs.Text.Utf8

/-!
# One program in every reading of a file

A file can be read as UTF-8 or as Latin-1, and with or without its line ends turned into line feeds.
The texts differ wherever the file has a character beyond ASCII or a carriage return, but only in
commentary, and no stretch of commentary appears or vanishes. So the program is the same, or the
same bracket is to blame; and it is in the same line.

## Architecture

- **§1 Line ends**: `sameRuns_unifyLineEnds`.
- **§2 Encodings**: `Spells.sameRuns`, `Spells.sameLines`.
- **§3 Files**: `compileFile_in_every_reading`.
-/

namespace FoldTape

/-! ## §1 Line ends -/

theorem isComment_singleton {c : Char} (hc : Operator.ofSymbol? c = none) : IsComment [c] := by
  intro d hd
  rwa [List.mem_singleton.mp hd]

/-- **Turning line ends into line feeds** keeps the runs: it makes commentary shorter, but not
empty. -/
theorem sameRuns_unifyLineEnds (s : List Char) : SameRuns (unifyLineEnds s) s := by
  induction s using List.reverseRecOn with
  | nil => exact .refl []
  | append_singleton s c ih =>
    rw [unifyLineEnds_concat]
    split
    · -- The second half of a line end is dropped, and the first half is still there.
      rename_i hsecond
      obtain ⟨rfl, hlast⟩ := hsecond
      refine ih.append_more ?_ (isComment_singleton rfl)
      intro op
      rw [hlast]
      cases op <;> decide
    · by_cases hreturn : c = '\r'
      · subst hreturn
        exact ih.append_comment (isComment_singleton rfl) (isComment_singleton rfl)
          (List.cons_ne_nil _ _) (List.cons_ne_nil _ _)
      · rw [unifiedChar, if_neg hreturn]
        exact ih.concat c

/-! ## §2 Encodings -/

theorem decodeLatin1_append (bytes bytes' : List UInt8) :
    decodeLatin1 (bytes ++ bytes') = decodeLatin1 bytes ++ decodeLatin1 bytes' :=
  List.map_append

/-- A character that is neither an operator nor part of a line end. -/
theorem commentary_ofNat {value : Nat} (hvalue : 0x80 ≤ value) :
    Operator.ofSymbol? (Char.ofNat value) = none ∧ WithinLine (Char.ofNat value) :=
  ⟨ofSymbol?_ofNat_eq_none hvalue, ofNat_ne_of_ascii hvalue (by decide) (by decide),
    ofNat_ne_of_ascii hvalue (by decide) (by decide)⟩

/-- Bytes from 128 on are commentary in Latin-1. -/
theorem commentary_decodeLatin1 {piece : List UInt8} (hpiece : ∀ b ∈ piece, 0x80 ≤ b) :
    IsComment (decodeLatin1 piece) ∧ ∀ c ∈ decodeLatin1 piece, WithinLine c := by
  have hboth : ∀ c ∈ decodeLatin1 piece, Operator.ofSymbol? c = none ∧ WithinLine c := by
    intro c hc
    obtain ⟨b, hb, rfl⟩ := List.mem_map.mp hc
    exact commentary_ofNat (UInt8.le_iff_toNat_le.mp (hpiece b hb))
  exact ⟨fun c hc => (hboth c hc).1, fun c hc => (hboth c hc).2⟩

namespace Spells

variable {bytes : List UInt8} {text : List Char}

/-- **Latin-1 has the same runs as UTF-8**: where they differ, both have commentary. -/
theorem sameRuns (h : Spells bytes text) : SameRuns text (decodeLatin1 bytes) := by
  induction h with
  | nil => exact .refl []
  | ascii _ hb ih =>
    rw [decodeLatin1_append]
    exact ih.concat _
  | @sequence bytes piece text value _ hne hpiece hvalue _ ih =>
    rw [decodeLatin1_append]
    exact ih.append_comment (isComment_singleton (commentary_ofNat hvalue).1)
      (commentary_decodeLatin1 hpiece).1 (List.cons_ne_nil _ _) (mt List.map_eq_nil_iff.mp hne)

/-- They have as many lines. -/
theorem sameLines (h : Spells bytes text) : SameLines text (decodeLatin1 bytes) := by
  induction h with
  | nil => exact .refl []
  | ascii _ hb ih =>
    rw [decodeLatin1_append]
    exact ih.concat _
  | @sequence bytes piece text value _ hne hpiece hvalue _ ih =>
    rw [decodeLatin1_append]
    refine ih.append ?_ (commentary_decodeLatin1 hpiece).2 (List.cons_ne_nil _ _)
      (mt List.map_eq_nil_iff.mp hne)
    intro c hc
    rw [List.mem_singleton.mp hc]
    exact (commentary_ofNat hvalue).2

end Spells

/-! ## §3 Files -/

/-- The report of an imbalance that is to blame on the bracket between two parts of a source. -/
def Imbalance.report (i : Imbalance) (before after : List Char) : Diagnostic :=
  Diagnostic.build i.message.toList (before ++ i.bracket.symbol :: after) before.length

theorem Imbalance.line_report (i : Imbalance) (before after : List Char) :
    (i.report before after).place.line = before.count '\n' + 1 := by
  have htake : (before ++ i.bracket.symbol :: after).take before.length = before := List.take_left
  have hline : (i.report before after).place.line =
      ((before ++ i.bracket.symbol :: after).take before.length).count '\n' + 1 := rfl
  rw [hline, htake]

theorem compileText_of_ok {source : List Char} {p : Program} (h : compile source = .ok p) :
    compileText source = .ok p := by
  rw [compileText, h]

theorem compileText_of_error {i : Imbalance} {before after : List Char}
    (h : compile (before ++ i.bracket.symbol :: after) = .error ⟨i, before.length⟩) :
    compileText (before ++ i.bracket.symbol :: after) = .error (i.report before after) := by
  rw [compileText, h]
  rfl

/-- Compiling a file is compiling its text, with the line ends turned into line feeds. -/
theorem compileFile_eq {d : Directory} {path : String} {bytes : List UInt8} {encoding : Encoding}
    {text : List Char} (hnul : (tidyPath path).contains '\x00' = false)
    (hfile : d.read (tidyPath path) = .ok bytes) (htext : encoding.decode bytes = .ok text) :
    compileFile d path encoding =
      (compileText (unifyLineEnds text)).mapError fun r => .run (.unbalanced r) := by
  rw [compileFile, Directory.readText, hnul, hfile]
  simp only [textOfBytes, htext, Bool.false_eq_true, if_false]
  cases compileText (unifyLineEnds text) <;> rfl

/-- **One program in every reading of a file.** Let a path lead to a file whose bytes are valid
UTF-8. Then the file read as UTF-8, the file read as Latin-1, and the text that is decoded from its
bytes with all line ends left as they are, are compiled to the same program; or all three are
reported with the same imbalance, about the same byte of the file: the bracket that comes after the
readings of what is before this byte. The line that is reported of the file is then the same in both
encodings. -/
theorem compileFile_in_every_reading {d : Directory} {path : String} {bytes : List UInt8}
    {text : List Char} (hnul : (tidyPath path).contains '\x00' = false)
    (hfile : d.read (tidyPath path) = .ok bytes)
    (htext : Encoding.utf8.decode bytes = .ok text) :
    (∃ p, compileFile d path .utf8 = .ok p ∧ compileFile d path .latin1 = .ok p ∧
      compileText text = .ok p) ∨
    ∃ (i : Imbalance) (before after : List UInt8) (start rest : List Char),
      bytes = before ++ UInt8.ofNat i.bracket.code :: after ∧
      text = start ++ i.bracket.symbol :: rest ∧
      Encoding.utf8.decode before = .ok start ∧ Encoding.utf8.decode after = .ok rest ∧
      ∃ utf8 latin1 : Diagnostic,
        compileFile d path .utf8 = .error (.run (.unbalanced utf8)) ∧
        compileFile d path .latin1 = .error (.run (.unbalanced latin1)) ∧
        compileText text = .error (i.report start rest) ∧
        utf8 = i.report (unifyLineEnds start) (unifyLineEnds rest) ∧
        latin1 = i.report (unifyLineEnds (decodeLatin1 before))
          (unifyLineEnds (decodeLatin1 after)) ∧
        utf8.place.line = latin1.place.line := by
  have hspells := spells_of_decode htext
  have hdecode : Encoding.latin1.decode bytes = .ok (decodeLatin1 bytes) := rfl
  rw [compileFile_eq hnul hfile htext, compileFile_eq hnul hfile hdecode]
  cases hcompile : compile text with
  | ok p =>
    left
    have hutf8 : SameRuns text (unifyLineEnds text) := (sameRuns_unifyLineEnds text).symm
    have hlatin1 : SameRuns text (unifyLineEnds (decodeLatin1 bytes)) :=
      hspells.sameRuns.trans (sameRuns_unifyLineEnds _).symm
    refine ⟨p, ?_, ?_, compileText_of_ok hcompile⟩
    · rw [compileText_of_ok (compile_of_blocks_eq hutf8.blocks hcompile)]
      rfl
    · rw [compileText_of_ok (compile_of_blocks_eq hlatin1.blocks hcompile)]
      rfl
  | error u =>
    right
    -- The text is cut at the bracket to blame, then the bytes, then the two other texts.
    obtain ⟨i, position⟩ := u
    obtain ⟨start, rest, rfl, rfl, hblames⟩ := compile_error_iff.mp hcompile
    obtain ⟨before, after, rfl, hbefore, hafter⟩ := hspells.exists_cut rfl
    have hbracket : WithinLine i.bracket.symbol := by
      cases i <;> exact ⟨by decide, by decide⟩
    -- What is before and after the bracket has the same blocks in every reading.
    have hutf8 := compile_error_of_blocks_eq (sameRuns_unifyLineEnds start).symm.blocks
      (sameRuns_unifyLineEnds rest).symm.blocks hblames
    have hlatin1 := compile_error_of_blocks_eq
      (hbefore.sameRuns.trans (sameRuns_unifyLineEnds _).symm).blocks
      (hafter.sameRuns.trans (sameRuns_unifyLineEnds _).symm).blocks hblames
    have hread : decodeLatin1 (before ++ UInt8.ofNat i.bracket.code :: after) =
        decodeLatin1 before ++ i.bracket.symbol :: decodeLatin1 after := by
      rw [decodeLatin1_append]
      cases i <;> rfl
    refine ⟨i, before, after, start, rest, rfl, rfl, hbefore.decode, hafter.decode,
      i.report (unifyLineEnds start) (unifyLineEnds rest),
      i.report (unifyLineEnds (decodeLatin1 before)) (unifyLineEnds (decodeLatin1 after)), ?_, ?_,
      compileText_of_error hcompile, rfl, rfl, ?_⟩
    · rw [unifyLineEnds_append_cons hbracket, compileText_of_error hutf8]
      rfl
    · rw [hread, unifyLineEnds_append_cons hbracket, compileText_of_error hlatin1]
      rfl
    · rw [i.line_report, i.line_report, hbefore.sameLines.count]

/-- An accented letter, which is one character in UTF-8 and two in Latin-1, a line end of two
characters, and in the second line a bracket without partner. -/
theorem compileFile_in_every_reading_accent :
    (tidyPath "p").contains '\x00' = false ∧
    (⟨[(["p"], [0xc3, 0xa9, 0x0d, 0x0a, 0x5d])], []⟩ : Directory).read (tidyPath "p") =
      .ok [0xc3, 0xa9, 0x0d, 0x0a, 0x5d] ∧
    Encoding.utf8.decode [0xc3, 0xa9, 0x0d, 0x0a, 0x5d] = .ok ['é', '\r', '\n', ']'] ∧
    ∃ utf8 latin1 : Diagnostic,
      compileFile ⟨[(["p"], [0xc3, 0xa9, 0x0d, 0x0a, 0x5d])], []⟩ "p" .utf8 =
        .error (.run (.unbalanced utf8)) ∧
      compileFile ⟨[(["p"], [0xc3, 0xa9, 0x0d, 0x0a, 0x5d])], []⟩ "p" .latin1 =
        .error (.run (.unbalanced latin1)) ∧
      utf8.place.line = latin1.place.line := by
  have htidy : tidyPath "p" = "p" := by
    rw [tidyPath, Directory.names_p]
    decide +kernel
  have hnul : (tidyPath "p").contains '\x00' = false := by
    rw [htidy]
    simp
  have hroot : "p".startsWith "/" = false := by decide +kernel
  have hfile : (⟨[(["p"], [0xc3, 0xa9, 0x0d, 0x0a, 0x5d])], []⟩ : Directory).read (tidyPath "p") =
      .ok [0xc3, 0xa9, 0x0d, 0x0a, 0x5d] := by
    rw [htidy, Directory.read, Directory.names_p, hroot]
    rfl
  have htext : Encoding.utf8.decode [0xc3, 0xa9, 0x0d, 0x0a, 0x5d] =
      .ok ['é', '\r', '\n', ']'] := by rfl
  refine ⟨hnul, hfile, htext, ?_⟩
  rcases compileFile_in_every_reading hnul hfile htext with
    ⟨p, -, -, hok⟩ | ⟨i, before, after, start, rest, -, -, -, -, utf8, latin1, hutf8, hlatin1, -, -,
      -, hline⟩
  · cases hok
  · exact ⟨utf8, latin1, hutf8, hlatin1, hline⟩

end FoldTape
