/-
  Sources one after the other.

  Nothing but the cursor passes from one line to the next.  So a run that starts behind
  an assembly is a run of its own in the room that is left, moved there
  (`foldlM_feed_eq_join`), and a source behind a line feed is assembled as if it stood
  alone, up to addresses, line numbers and the capacity that a fault names
  (`assemble_append`).
-/
import MicroAsm.Proofs.Assembly.Numbering

namespace MicroAsm

/-! ## One assembly behind another -/

/-- The placement with its address raised. -/
def Placement.raise (offset : Nat) (p : Placement) : Placement :=
  { p with address := p.address + offset }

/-- The fault, told of another capacity. -/
def Fault.within (capacity : Nat) : Fault → Fault
  | .defect n d => .defect n d
  | .overrun n _ => .overrun n capacity

namespace Assembly

/-- `a` with everything that `b` holds placed behind it. -/
def join (a b : Assembly) : Assembly :=
  ⟨⟨a.image.capacity, a.image.used ++ b.image.used⟩,
    a.instructions ++ b.instructions.map (.raise a.image.cursor)⟩

theorem join_empty (a : Assembly) (capacity : Nat) : a.join (empty capacity) = a := by
  simp [join, empty, Image.empty]

theorem cursor_join (a b : Assembly) :
    (a.join b).image.cursor = a.image.cursor + b.image.cursor := Array.size_append

theorem remaining_join {a b : Assembly} (h : b.image.capacity = a.image.remaining) :
    (a.join b).image.remaining = b.image.remaining := by
  have hcursor := cursor_join a b
  have hcapacity : (a.join b).image.capacity = a.image.capacity := rfl
  unfold Image.remaining at h ⊢
  omega

/-- The bytes of `b` stand behind those in use in `a`, the fill of `b` among them. -/
theorem bytes_join {a b : Assembly} (h : b.image.capacity = a.image.remaining) :
    (a.join b).image.bytes = a.image.used.toList ++ b.image.bytes := by
  have hused : (a.join b).image.used.toList = a.image.used.toList ++ b.image.used.toList :=
    Array.toList_append
  unfold Image.bytes
  rw [remaining_join h, hused, List.append_assoc]

/-- What is placed in `b` is placed behind `a`. -/
theorem join_place (a b : Assembly) (line : SourceLine) (i : Instruction) :
    (a.join b).place line i = a.join (b.place line i) := by
  have hused : a.image.used ++ b.image.used ++ i.bytes =
      a.image.used ++ (b.image.used ++ i.bytes) := Array.ext' (by simp)
  have hcursor : (a.join b).image.cursor = b.image.cursor + a.image.cursor := by
    rw [cursor_join, Nat.add_comm]
  unfold place
  rw [hcursor]
  simp [join, hused, Placement.raise]

/-! ## Runs behind an assembly -/

theorem feed_join {a b : Assembly} (h : b.image.capacity = a.image.remaining) (line : SourceLine) :
    (a.join b).feed line = ((b.feed line).map a.join).mapError (.within a.image.capacity) :=
  feed_eq_map Iff.rfl rfl (remaining_join h) rfl (join_place a b line) (fun _ => rfl) rfl

theorem capacity_of_feed {a b : Assembly} {line : SourceLine} (h : a.feed line = .ok b) :
    b.image.capacity = a.image.capacity := by
  by_cases hcode : line.IsCode
  · obtain ⟨i, -, -, rfl⟩ := (feed_eq_ok_iff hcode).mp h
    rfl
  · rw [feed_of_not_isCode hcode] at h
    rw [Except.ok.inj h]

/-- A run from `a` is a run in the room that is left, behind `a`. -/
theorem foldlM_feed_eq_join (a : Assembly) (lines : List SourceLine) :
    lines.foldlM feed a =
      ((lines.foldlM feed (empty a.image.remaining)).map a.join).mapError
        (.within a.image.capacity) := by
  have hkeep : ∀ (b : Assembly) line c, b.image.capacity = a.image.remaining →
      b.feed line = .ok c → c.image.capacity = a.image.remaining := by
    intro b line c hb hfeed
    rw [capacity_of_feed hfeed, hb]
  have hstep : ∀ (b : Assembly) line, b.image.capacity = a.image.remaining →
      (a.join b).feed (id line) =
        ((b.feed line).map a.join).mapError (.within a.image.capacity) := by
    intro b line hb
    exact feed_join hb line
  have hrun := foldlM_map_of_step _ hkeep hstep lines (s := empty a.image.remaining) rfl
  rwa [List.map_id, join_empty] at hrun

end Assembly

/-! ## Sources joined by a line feed -/

/-- Behind `s₁`, the second source is assembled in the room that is left. -/
theorem assemble_append {s₁ : Text} {capacity : Nat} {a₁ : Assembly}
    (h : assemble s₁ capacity = .ok a₁) (s₂ : Text) :
    assemble (s₁ ++ '\n' :: s₂) capacity =
      (((assemble s₂ (capacity - a₁.image.cursor)).map
          fun a₂ => a₁.join (a₂.renumber (· + (s₁.count '\n' + 1)))).mapError
        fun f => (f.renumber (· + (s₁.count '\n' + 1))).within capacity) := by
  have hcapacity := capacity_of_assemble h
  have hroom : a₁.image.remaining = capacity - a₁.image.cursor := by rw [← hcapacity]; rfl
  unfold assemble at h ⊢
  rw [sourceLines_append, foldlM_append_of_ok h, Assembly.foldlM_feed_eq_join,
    Assembly.foldlM_feed_renumber, hroom, hcapacity]
  cases (sourceLines s₂).foldlM Assembly.feed (Assembly.empty (capacity - a₁.image.cursor)) with
  | error f => rfl
  | ok a₂ => rfl

/-- `a` holds what `a₁` holds and, behind it, what `a₂` holds, with lines counted on from
    `lines`. -/
structure Continues (lines : Nat) (a₁ a₂ a : Assembly) : Prop where
  instructions_eq : a.instructions = a₁.instructions ++ a₂.instructions.map fun p =>
    { p with address := p.address + a₁.image.cursor, line := p.line + lines }
  bytes_eq : a.image.bytes = a₁.image.used.toList ++ a₂.image.bytes
  cursor_eq : a.image.cursor = a₁.image.cursor + a₂.image.cursor
  capacity_eq : a.image.capacity = a₁.image.capacity

theorem Assembly.continues_join (lines : Nat) {a₁ a₂ : Assembly}
    (h : a₂.image.capacity = a₁.image.remaining) :
    Continues lines a₁ a₂ (a₁.join (a₂.renumber (· + lines))) := by
  have hmap : (a₂.instructions.map (Placement.renumber (· + lines))).map
      (Placement.raise a₁.image.cursor) = a₂.instructions.map fun p =>
        { p with address := p.address + a₁.image.cursor, line := p.line + lines } := by
    rw [Array.map_map]
    rfl
  exact ⟨congrArg (a₁.instructions ++ ·) hmap, bytes_join h, cursor_join a₁ _, rfl⟩

/-- **Assembling joined sources.**  A fault of the first source is the fault of the whole.
    Behind a first source that assembles, the second is assembled in the room that is left:
    its instructions follow with addresses raised by the cursor and lines counted on, and so
    does the line of its fault. -/
theorem assemble_joined_sources (s₁ s₂ : Text) (capacity : Nat) :
    (∀ f, assemble s₁ capacity = .error f →
        assemble (s₁ ++ '\n' :: s₂) capacity = .error f) ∧
      ∀ a₁, assemble s₁ capacity = .ok a₁ →
        (∀ a₂, assemble s₂ (capacity - a₁.image.cursor) = .ok a₂ →
          ∃ a, assemble (s₁ ++ '\n' :: s₂) capacity = .ok a ∧
            Continues (s₁.count '\n' + 1) a₁ a₂ a) ∧
        (∀ n d, assemble s₂ (capacity - a₁.image.cursor) = .error (.defect n d) →
          assemble (s₁ ++ '\n' :: s₂) capacity =
            .error (.defect (n + (s₁.count '\n' + 1)) d)) ∧
        ∀ n k, assemble s₂ (capacity - a₁.image.cursor) = .error (.overrun n k) →
          assemble (s₁ ++ '\n' :: s₂) capacity =
            .error (.overrun (n + (s₁.count '\n' + 1)) capacity) := by
  refine ⟨?_, ?_⟩
  · intro f h
    unfold assemble at h ⊢
    rw [sourceLines_append, List.foldlM_append, h]
    rfl
  · intro a₁ h₁
    have happend := assemble_append h₁ s₂
    refine ⟨?_, ?_, ?_⟩
    · intro a₂ h₂
      have hroom : a₂.image.capacity = a₁.image.remaining := by
        rw [capacity_of_assemble h₂, Image.remaining, capacity_of_assemble h₁]
      rw [happend, h₂]
      exact ⟨_, rfl, Assembly.continues_join _ hroom⟩
    · intro n d h₂
      rw [happend, h₂]
      rfl
    · intro n k h₂
      rw [happend, h₂]
      rfl

/-- An empty line ends the first source; the second runs over the byte that is left to it. -/
theorem assemble_joined_sources_lim_page :
    assemble "lim r1, 1\n".toList 3 =
        .ok ⟨⟨3, #[0x88, 1]⟩, #[⟨0, 1, [0x88, 1], "lim r1, 1".toList⟩]⟩ ∧
      assemble "nop\npage 2".toList 1 = .error (.overrun 2 1) ∧
      assemble "lim r1, 1\n\nnop\npage 2".toList 3 = .error (.overrun 4 3) := by
  have h₁ : assemble "lim r1, 1\n".toList 3 =
      .ok ⟨⟨3, #[0x88, 1]⟩, #[⟨0, 1, [0x88, 1], "lim r1, 1".toList⟩]⟩ := by decide +kernel
  have h₂ : assemble "nop\npage 2".toList 1 = .error (.overrun 2 1) := by decide +kernel
  exact ⟨h₁, h₂, ((assemble_joined_sources _ _ _).2 _ h₁).2.2 2 1 h₂⟩

end MicroAsm
