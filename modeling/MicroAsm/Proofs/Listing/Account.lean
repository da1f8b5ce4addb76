/-
  A listing is an account of the assembly.

  Cut at its line feeds, a listing is its title, two header lines, one row per instruction,
  the last line and nothing more.  From the rows every placement reads back, and from the last
  line the capacity; so the listing decides the assembly (`listing_determines_assembly`).  The
  rows can be replayed: their bytes are those of the image, and both their canonical texts and
  their sources assemble to it again (`listing_replays_program`).
-/
import MicroAsm.Proofs.Assembly.Layout
import MicroAsm.Proofs.Assembly.RoundTrip
import MicroAsm.Proofs.Listing.Lines

namespace MicroAsm

/-! ## What an assembly shows -/

namespace Assembly

variable {lines : List SourceLine} {program : List Instruction}

/-- Each placement shows the instruction of its line. -/
theorem Parses.exists_shows (h : Parses lines program)
    (hfeed : ∀ line ∈ lines, '\n' ∉ line.text) (address : Nat) :
    ∀ p ∈ placements address lines program, ∃ i, Listing.Shows p i := by
  induction h generalizing address with
  | nil => simp [placements]
  | @cons line i lines program hi _ ih =>
    intro p hp
    rw [placements, List.mem_cons] at hp
    rcases hp with rfl | hp
    · exact ⟨i, (Instruction.lineForm_of_parse hi).1, rfl, fun hmem =>
        hfeed line (by simp) (Text.mem_of_mem_trim hmem)⟩
    · exact ih (fun l hl => hfeed l (by simp [hl])) _ p hp

end Assembly

theorem newline_notMem_of_mem_codeLines {source : Text} {line : SourceLine}
    (h : line ∈ codeLines source) : '\n' ∉ line.text :=
  (isCut_sourceLines source).no_feed line (List.mem_of_mem_filter h)

namespace Listing

theorem exists_shows_of_assemble {source : Text} {capacity : Nat} {a : Assembly}
    (h : assemble source capacity = .ok a) : ∀ p ∈ a.instructions.toList, ∃ i, Shows p i := by
  obtain ⟨program, hparse, -, rfl⟩ := assemble_eq_ok_iff.mp h
  rw [Assembly.instructions_placeAll_empty]
  exact hparse.exists_shows (fun _ => newline_notMem_of_mem_codeLines) 0

/-! ## Reading the assembly back -/

/-- Rows of shown placements decide the placements. -/
theorem placements_eq_of_rows_eq {ps qs : List Placement} (hps : ∀ p ∈ ps, ∃ i, Shows p i)
    (hqs : ∀ q ∈ qs, ∃ j, Shows q j) (h : ps.map row = qs.map row) : ps = qs := by
  induction ps generalizing qs with
  | nil => exact (List.map_eq_nil_iff.mp h.symm).symm
  | cons p ps ih =>
    obtain ⟨q, rest, rfl, hq, hrest⟩ := List.map_eq_cons_iff.mp h.symm
    obtain ⟨i, hi⟩ := hps p (by simp)
    obtain ⟨j, hj⟩ := hqs q (by simp)
    rw [hi.eq_of_columns_eq hj (congrArg columns hq.symm),
      ih (fun p hp => hps p (by simp [hp])) (fun q hq => hqs q (by simp [hq])) hrest.symm]

/-- A numeral in front of a space reads back. -/
theorem eq_of_decimal_append_eq {m n : Nat} {s t : Text}
    (h : Text.decimal m ++ ' ' :: s = Text.decimal n ++ ' ' :: t) : m = n := by
  have hcut : ∀ (k : Nat) (rest : Text),
      (Text.decimal k ++ ' ' :: rest).takeWhile Char.isDigit = Text.decimal k := fun k rest =>
    Text.takeWhile_run (fun _ => Text.isDigit_of_mem_decimal) (Text.stopsAt_cons.mpr (by decide))
  have hread := congrArg (fun t => Text.ofDigits? 10 (t.takeWhile Char.isDigit)) h
  simpa [hcut, Text.ofDigits?_decimal] using hread

/-- The last line decides the capacity, once the rest of the assembly is known. -/
theorem capacity_eq_of_trailer_eq {a b : Assembly}
    (hsize : a.instructions.size = b.instructions.size)
    (hcursor : a.image.cursor = b.image.cursor) (h : trailer a = trailer b) :
    a.image.capacity = b.image.capacity := by
  unfold trailer at h
  rw [hsize, hcursor] at h
  simp only [List.append_assoc] at h
  have hrest := List.append_cancel_left (List.append_cancel_left (List.append_cancel_left
    (List.append_cancel_left (List.append_cancel_left h))))
  exact eq_of_decimal_append_eq hrest

/-- The lines behind the title decide the placements and the last line. -/
theorem instructions_eq_of_body_eq {a b : Assembly}
    (ha : ∀ p ∈ a.instructions.toList, ∃ i, Shows p i)
    (hb : ∀ p ∈ b.instructions.toList, ∃ i, Shows p i) (h : body a = body b) :
    a.instructions = b.instructions ∧ trailer a = trailer b := by
  have hlines := (List.cons.inj (List.cons.inj h).2).2
  obtain ⟨hrows, htrailer⟩ := List.append_inj' hlines rfl
  exact ⟨Array.toList_inj.mp (placements_eq_of_rows_eq ha hb hrows), List.singleton_inj.mp htrailer⟩

/-- Listings under one title have the same lines behind it when they are the same text. -/
theorem body_eq_of_render_eq {title : Text} {a b : Assembly}
    (ha : ∀ p ∈ a.instructions.toList, ∃ i, Shows p i)
    (hb : ∀ p ∈ b.instructions.toList, ∃ i, Shows p i) (h : render title a = render title b) :
    body a = body b := by
  rw [render_eq, render_eq] at h
  have hfeeds := (List.cons.inj (List.append_cancel_left h)).2
  have hsplit := congrArg (List.splitOn '\n') hfeeds
  rw [splitOn_flatMap_feed (newline_notMem_of_mem_body ha),
    splitOn_flatMap_feed (newline_notMem_of_mem_body hb)] at hsplit
  exact List.append_cancel_right hsplit

end Listing

/-- **A listing decides the assembly.**  Two sources that assemble, each at its own capacity,
    and have the same listing under one title were assembled at one capacity to one assembly:
    the same image, and the same instructions with their addresses, bytes, lines and sources. -/
theorem listing_determines_assembly {s₁ s₂ title : Text} {c₁ c₂ : Nat} {a₁ a₂ : Assembly}
    (h₁ : assemble s₁ c₁ = .ok a₁) (h₂ : assemble s₂ c₂ = .ok a₂)
    (h : Listing.render title a₁ = Listing.render title a₂) : c₁ = c₂ ∧ a₁ = a₂ := by
  have hshows₁ := Listing.exists_shows_of_assemble h₁
  have hshows₂ := Listing.exists_shows_of_assemble h₂
  have hbody := Listing.body_eq_of_render_eq hshows₁ hshows₂ h
  obtain ⟨hinstructions, htrailer⟩ := Listing.instructions_eq_of_body_eq hshows₁ hshows₂ hbody
  have hused : a₁.image.used = a₂.image.used := by
    rw [← Array.toList_inj, used_of_assemble h₁, used_of_assemble h₂, hinstructions]
  have hcapacity : a₁.image.capacity = a₂.image.capacity :=
    Listing.capacity_eq_of_trailer_eq (congrArg Array.size hinstructions)
      (congrArg Array.size hused) htrailer
  refine ⟨?_, ?_⟩
  · rw [← capacity_of_assemble h₁, ← capacity_of_assemble h₂, hcapacity]
  · obtain ⟨⟨capacity, used⟩, instructions⟩ := a₁
    obtain rfl : capacity = a₂.image.capacity := hcapacity
    obtain rfl : used = a₂.image.used := hused
    obtain rfl : instructions = a₂.instructions := hinstructions
    rfl

/-- A comment and a blank line above the same instruction leave no difference. -/
theorem listing_determines_assembly_lim :
    ∃ a₁ a₂, assemble "// note\n lim r2, 0x0A".toList 4 = .ok a₁ ∧
      assemble "\nlim r2, 0x0A\t".toList 4 = .ok a₂ ∧
      Listing.render "p.s".toList a₁ = Listing.render "p.s".toList a₂ ∧ 4 = 4 ∧ a₁ = a₂ := by
  have h₁ : assemble "// note\n lim r2, 0x0A".toList 4 =
      .ok ⟨⟨4, #[0x90, 0x0A]⟩, #[⟨0, 2, [0x90, 0x0A], "lim r2, 0x0A".toList⟩]⟩ := by
    decide +kernel
  have h₂ : assemble "\nlim r2, 0x0A\t".toList 4 =
      .ok ⟨⟨4, #[0x90, 0x0A]⟩, #[⟨0, 2, [0x90, 0x0A], "lim r2, 0x0A".toList⟩]⟩ := by
    decide +kernel
  exact ⟨_, _, h₁, h₂, rfl, @listing_determines_assembly _ _ "p.s".toList _ _ _ _ h₁ h₂ rfl⟩

/-! ## Replaying a listing -/

/-- Assembled at `capacity`, these lines give the image of `a` again, with its instructions at
    the same addresses. -/
def Replays (capacity : Nat) (a : Assembly) (lines : List Text) : Prop :=
  ∃ b, assemble (['\n'].intercalate lines) capacity = .ok b ∧ b.image = a.image ∧
    b.instructions.toList.map Placement.address = a.instructions.toList.map Placement.address

/-- Lines replay an assembly when they parse to the same program. -/
theorem replays_of_parses {lines : List SourceLine} {program : List Instruction}
    (hparse : Assembly.Parses lines program) {capacity : Nat}
    (hfit : (Program.bytes program).length ≤ capacity) {texts : List Text}
    (htexts : List.Forall₂ (fun t i => Instruction.parse t = .ok i) texts program)
    (hcode : ∀ t ∈ texts, ∀ n, SourceLine.IsCode ⟨n, t⟩) (hfeed : ∀ t ∈ texts, '\n' ∉ t) :
    Replays capacity ((Assembly.empty capacity).placeAll lines program) texts := by
  refine ⟨_, assemble_intercalate htexts hcode hfeed hfit, rfl, ?_⟩
  rw [Assembly.instructions_placeAll_empty, Assembly.instructions_placeAll_empty,
    (parses_numbered htexts 1).map_address_placements, hparse.map_address_placements]

/-- A code line without its outer blanks is a code line. -/
theorem SourceLine.IsCode.trim {line : SourceLine} (h : line.IsCode) (hfeed : '\n' ∉ line.text)
    (n : Nat) : SourceLine.IsCode ⟨n, Text.trim line.text⟩ := by
  obtain ⟨before, after, hbefore, hafter, htext⟩ := Text.exists_blanks_around_trim line.text
  rw [htext] at hfeed
  have hpadded := PaddedLine.isCode_text ⟨before, _, after, hbefore, hafter, hfeed⟩ n
  refine hpadded.mp ?_
  rw [PaddedLine.text, ← htext]
  exact h

/-- Lines without their outer blanks parse to the same program. -/
theorem Assembly.Parses.forall₂_parse_trim {lines : List SourceLine} {program : List Instruction}
    (h : Parses lines program) :
    List.Forall₂ (fun t i => Instruction.parse t = .ok i)
      (lines.map fun line => Text.trim line.text) program := by
  rw [List.forall₂_map_left_iff]
  refine List.Forall₂.imp ?_ h
  intro line i hi
  obtain ⟨before, after, hbefore, hafter, htext⟩ := Text.exists_blanks_around_trim line.text
  rw [htext, Instruction.parse_blanks_around hbefore hafter] at hi
  exact hi

/-- The canonical texts of its program replay an assembly. -/
theorem replays_texts {lines : List SourceLine} {program : List Instruction}
    (hparse : Assembly.Parses lines program) {capacity : Nat}
    (hfit : (Program.bytes program).length ≤ capacity) :
    Replays capacity ((Assembly.empty capacity).placeAll lines program)
      (program.map Instruction.text) := by
  have hp := hparse.wellFormed
  exact replays_of_parses hparse hfit (Program.forall₂_parse_text hp)
    (Program.isCode_of_mem_texts hp) (Program.newline_notMem_of_mem_texts hp)

/-- Its code lines, without their outer blanks, replay an assembly. -/
theorem replays_sources {lines : List SourceLine} {program : List Instruction}
    (hparse : Assembly.Parses lines program) {capacity : Nat}
    (hfit : (Program.bytes program).length ≤ capacity) (hcode : ∀ line ∈ lines, line.IsCode)
    (hfeed : ∀ line ∈ lines, '\n' ∉ line.text) :
    Replays capacity ((Assembly.empty capacity).placeAll lines program)
      (lines.map fun line => Text.trim line.text) := by
  refine replays_of_parses hparse hfit hparse.forall₂_parse_trim ?_ ?_
  · intro t ht n
    obtain ⟨line, hline, rfl⟩ := List.mem_map.mp ht
    exact (hcode line hline).trim (hfeed line hline) n
  · intro t ht hmem
    obtain ⟨line, hline, rfl⟩ := List.mem_map.mp ht
    exact hfeed line hline (Text.mem_of_mem_trim hmem)

namespace Listing

/-- No canonical text looks like a failed decoding. -/
theorem not_questionMarks_prefix_text {i : Instruction} (h : i.WellFormed) :
    ¬ ['?', '?'] <+: i.text := by
  obtain ⟨c, rest, htext, hc⟩ := Instruction.exists_text_eq_cons h
  rw [htext]
  rintro ⟨tail, htail⟩
  obtain rfl : '?' = c := (List.cons.inj htail).1
  exact absurd hc (by decide)

section

variable {ps : List Placement} (h : ∀ p ∈ ps, ∃ i, Shows p i)

include h

/-- The bytes in the rows of shown placements read back. -/
theorem mapM_readBytes?_rows :
    ((ps.map row).mapM fun r => readBytes? (columns r).bytes) = some (ps.map Placement.bytes) := by
  refine mapM_map_eq_some ?_
  intro p hp
  obtain ⟨i, hi⟩ := h p hp
  rw [hi.columns_row, readBytes?_bytesText hi.bytes_ne_nil]

theorem map_instruction_rows :
    ((ps.map row).map fun r => (columns r).instruction) =
      (ps.map Placement.bytes).map instructionText := by
  rw [List.map_map, List.map_map]
  refine List.map_congr_left ?_
  intro p hp
  obtain ⟨i, hi⟩ := h p hp
  rw [Function.comp_apply, Function.comp_apply, hi.columns_row, hi.bytes_eq,
    instructionText_bytes hi.wellFormed]

theorem map_source_rows :
    ((ps.map row).map fun r => (columns r).source) = ps.map Placement.source := by
  rw [List.map_map]
  refine List.map_congr_left ?_
  intro p hp
  obtain ⟨i, hi⟩ := h p hp
  rw [Function.comp_apply, hi.columns_row]

end

/-- The canonical texts in the rows of an assembly are those of its program. -/
theorem map_instructionText_placements {lines : List SourceLine} {program : List Instruction}
    (hparse : Assembly.Parses lines program) :
    ((Assembly.placements 0 lines program).map Placement.bytes).map instructionText =
      program.map Instruction.text := by
  rw [hparse.map_bytes_placements, List.map_map]
  exact List.map_congr_left fun i hi => instructionText_bytes (hparse.wellFormed i hi)

end Listing

/-- **A listing can be replayed.**  Cut at its line feeds, the listing of an assembled source is
    the title, the two header lines, one row per instruction, the last line and nothing more.
    The canonical text in a row is never that of a failed decoding.  The bytes in the rows are
    the used bytes of the image, and both their canonical texts and their sources, put together
    line by line, assemble at the same capacity to the same image with the same addresses. -/
theorem listing_replays_program {source title : Text} {capacity : Nat} {a : Assembly}
    (h : assemble source capacity = .ok a) (htitle : '\n' ∉ title) :
    ∃ rows, rows = a.instructions.toList.map Listing.row ∧
      (Listing.render title a).splitOn '\n' =
        title :: Listing.header :: Listing.rule :: (rows ++ [Listing.trailer a, []]) ∧
      (∀ r ∈ rows, ¬ ['?', '?'] <+: (Listing.columns r).instruction) ∧
      (rows.mapM fun r => Listing.readBytes? (Listing.columns r).bytes).map List.flatten =
        some a.image.used.toList ∧
      Replays capacity a (rows.map fun r => (Listing.columns r).instruction) ∧
      Replays capacity a (rows.map fun r => (Listing.columns r).source) := by
  have hshows := Listing.exists_shows_of_assemble h
  have hused := used_of_assemble h
  obtain ⟨program, hparse, hfit, rfl⟩ := assemble_eq_ok_iff.mp h
  refine ⟨_, rfl, Listing.splitOn_render htitle hshows, ?_, ?_, ?_, ?_⟩
  · intro r hr
    obtain ⟨p, hp, rfl⟩ := List.mem_map.mp hr
    obtain ⟨i, hi⟩ := hshows p hp
    rw [hi.columns_row]
    exact Listing.not_questionMarks_prefix_text hi.wellFormed
  · rw [Listing.mapM_readBytes?_rows hshows, Option.map_some, hused]
  · rw [Listing.map_instruction_rows hshows, Assembly.instructions_placeAll_empty,
      Listing.map_instructionText_placements hparse]
    exact replays_texts hparse hfit
  · rw [Listing.map_source_rows hshows, Assembly.instructions_placeAll_empty,
      hparse.map_source_placements]
    exact replays_sources hparse hfit (fun _ => isCode_of_mem_codeLines)
      (fun _ => newline_notMem_of_mem_codeLines)

/-- Two instructions around a comment; the first is written otherwise than its canonical text. -/
theorem listing_replays_program_lim_push :
    ∃ a, assemble "lim r02,0x0A\n// note\n push r2".toList 4 = .ok a ∧ '\n' ∉ "p.s".toList ∧
      ∃ rows, rows = a.instructions.toList.map Listing.row ∧
        (Listing.render "p.s".toList a).splitOn '\n' = "p.s".toList :: Listing.header ::
          Listing.rule :: (rows ++ [Listing.trailer a, []]) ∧
        (∀ r ∈ rows, ¬ ['?', '?'] <+: (Listing.columns r).instruction) ∧
        (rows.mapM fun r => Listing.readBytes? (Listing.columns r).bytes).map List.flatten =
          some a.image.used.toList ∧
        Replays 4 a (rows.map fun r => (Listing.columns r).instruction) ∧
        Replays 4 a (rows.map fun r => (Listing.columns r).source) := by
  have h : assemble "lim r02,0x0A\n// note\n push r2".toList 4 =
      .ok ⟨⟨4, #[0x90, 0x0A, 0x50]⟩, #[⟨0, 1, [0x90, 0x0A], "lim r02,0x0A".toList⟩,
        ⟨2, 3, [0x50], "push r2".toList⟩]⟩ := by
    decide +kernel
  exact ⟨_, h, by decide, listing_replays_program h (by decide)⟩

end MicroAsm
