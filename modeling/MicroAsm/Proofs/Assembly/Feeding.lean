/-
  Feeding lines to an assembly that goes on after faults.

  A line with a fault leaves the assembly as it was (`eq_of_offer_fault`), and any other
  line leaves it as it was or places one instruction at the cursor (`offer_none_cases`).
  So the placed instructions always stand end to end in front of the fill (`Tiled`), and
  the faulty lines might as well not have been there (`feedEach_accepted`).
-/
import MicroAsm.Proofs.Assembly.Run
import MicroAsm.Proofs.Image

namespace MicroAsm

/-! ## Instructions end to end -/

/-- The placements stand end to end, from `start` up to `stop`. -/
def Tiles (start : Nat) : List Placement → Nat → Prop
  | [], stop => start = stop
  | p :: placements, stop => p.address = start ∧ Tiles (start + p.bytes.length) placements stop

theorem Tiles.concat {start stop : Nat} {placements : List Placement}
    (h : Tiles start placements stop) {p : Placement} (hp : p.address = stop) :
    Tiles start (placements ++ [p]) (stop + p.bytes.length) := by
  induction placements generalizing start with
  | nil =>
    obtain rfl : start = stop := h
    exact ⟨hp, rfl⟩
  | cons q placements ih =>
    obtain ⟨hq, hrest⟩ := h
    exact ⟨hq, ih hrest⟩

/-- The instructions tile the image up to the cursor, its used bytes are theirs, and the fill
    reaches from there to the capacity. -/
structure Tiled (capacity : Nat) (a : Assembly) : Prop where
  capacity_eq : a.image.capacity = capacity
  cursor_le : a.image.cursor ≤ capacity
  tiles : Tiles 0 a.instructions.toList a.image.cursor
  used_eq : a.image.used.toList = (a.instructions.toList.map Placement.bytes).flatten
  length_eq : a.image.bytes.length = capacity
  fill : ∀ k, a.image.cursor ≤ k → k < capacity → a.image.bytes[k]? = some fillByte

namespace Assembly

/-- What the image says of its capacity and cursor decides the rest of it. -/
theorem tiled_of_tiles {capacity : Nat} {a : Assembly} (hcapacity : a.image.capacity = capacity)
    (hcursor : a.image.cursor ≤ capacity) (htiles : Tiles 0 a.instructions.toList a.image.cursor)
    (hused : a.image.used.toList = (a.instructions.toList.map Placement.bytes).flatten) :
    Tiled capacity a := by
  subst hcapacity
  exact ⟨rfl, hcursor, htiles, hused, Image.length_bytes _ hcursor,
    fun k => Image.getElem?_bytes_of_le⟩

theorem tiled_empty (capacity : Nat) : Tiled capacity (empty capacity) :=
  tiled_of_tiles rfl (Nat.zero_le capacity) rfl rfl

/-! ## One line -/

/-- A line with a fault leaves the assembly as it was. -/
theorem eq_of_offer_fault {a b : Assembly} {line : SourceLine} {fault : Fault}
    (h : a.offer line = (some fault, b)) : b = a := by
  unfold offer at h
  split at h
  · exact absurd h (by simp)
  · exact absurd h (by simp)
  split at h
  · exact (Prod.mk.inj h).2.symm
  next i _ =>
  by_cases hfit : i.bytes.length ≤ a.image.remaining
  · rw [Image.push_of_le hfit] at h
    exact absurd h (by simp)
  · rw [Image.push_of_lt (Nat.lt_of_not_le hfit)] at h
    exact (Prod.mk.inj h).2.symm

theorem feed_of_offer_none {a b : Assembly} {line : SourceLine} (h : a.offer line = (none, b)) :
    a.feed line = .ok b := by
  rw [feed, h]

/-- A line without a fault places one instruction, or nothing. -/
theorem offer_none_cases {a b : Assembly} {line : SourceLine} (h : a.offer line = (none, b)) :
    b = a ∨ ∃ i : Instruction, i.bytes.length ≤ a.image.remaining ∧ b = a.place line i := by
  have hfeed := feed_of_offer_none h
  by_cases hcode : line.IsCode
  · obtain ⟨i, -, hfit, rfl⟩ := (feed_eq_ok_iff hcode).mp hfeed
    exact Or.inr ⟨i, hfit, rfl⟩
  · rw [feed_of_not_isCode hcode] at hfeed
    exact Or.inl (Except.ok.inj hfeed).symm

theorem cursor_place (a : Assembly) (line : SourceLine) (i : Instruction) :
    (a.place line i).image.cursor = a.image.cursor + i.bytes.length := by
  rw [place, Image.cursor, size_append_list]
  rfl

end Assembly

theorem Tiled.place {capacity : Nat} {a : Assembly} (h : Tiled capacity a) (line : SourceLine)
    {i : Instruction} (hfit : i.bytes.length ≤ a.image.remaining) :
    Tiled capacity (a.place line i) := by
  have hcursor := Assembly.cursor_place a line i
  have hle := h.cursor_le
  rw [Image.remaining, h.capacity_eq] at hfit
  refine Assembly.tiled_of_tiles h.capacity_eq ?_ ?_ ?_
  · rw [hcursor]
    omega
  · rw [hcursor, Assembly.place, Array.toList_push]
    exact h.tiles.concat rfl
  · rw [Assembly.place, Array.toList_appendList, Array.toList_push, h.used_eq, List.map_append,
      List.flatten_append]
    simp

/-- One more line keeps the instructions end to end. -/
theorem Tiled.offer {capacity : Nat} {a : Assembly} (h : Tiled capacity a) (line : SourceLine) :
    Tiled capacity (a.offer line).2 := by
  cases hoffer : a.offer line with | mk outcome b =>
  cases outcome with
  | some fault =>
    obtain rfl := Assembly.eq_of_offer_fault hoffer
    exact h
  | none =>
    rcases Assembly.offer_none_cases hoffer with rfl | ⟨i, hfit, rfl⟩
    · exact h
    · exact h.place line hfit

/-! ## Runs -/

theorem Tiled.feedEach {capacity : Nat} {a : Assembly} (h : Tiled capacity a)
    (lines : List SourceLine) : Tiled capacity (a.feedEach lines).2 := by
  induction lines generalizing a with
  | nil => exact h
  | cons line lines ih => exact ih (h.offer line)

namespace Assembly

theorem feedEach_cons (a : Assembly) (line : SourceLine) (lines : List SourceLine) :
    a.feedEach (line :: lines) =
      ((a.offer line).1 :: ((a.offer line).2.feedEach lines).1,
        ((a.offer line).2.feedEach lines).2) := rfl

theorem length_feedEach (a : Assembly) (lines : List SourceLine) :
    (a.feedEach lines).1.length = lines.length := by
  induction lines generalizing a with
  | nil => rfl
  | cons line lines ih => exact congrArg (· + 1) (ih _)

/-- A run over `xs ++ ys` is the run over `xs` and then the one over `ys`. -/
theorem feedEach_append (a : Assembly) (xs ys : List SourceLine) :
    a.feedEach (xs ++ ys) =
      ((a.feedEach xs).1 ++ ((a.feedEach xs).2.feedEach ys).1,
        ((a.feedEach xs).2.feedEach ys).2) := by
  induction xs generalizing a with
  | nil => rfl
  | cons line xs ih => rw [List.cons_append, feedEach_cons, ih, feedEach_cons, List.cons_append]

/-- The lines whose outcome was no fault. -/
def accepted (lines : List SourceLine) (outcomes : List (Option Fault)) : List SourceLine :=
  ((lines.zip outcomes).filter fun entry => entry.2.isNone).map Prod.fst

/-- The accepted lines alone lead to the same assembly, and all are accepted again. -/
theorem feedEach_accepted (a : Assembly) (lines : List SourceLine) :
    a.feedEach (accepted lines (a.feedEach lines).1) =
      ((accepted lines (a.feedEach lines).1).map fun _ => none, (a.feedEach lines).2) := by
  induction lines generalizing a with
  | nil => rfl
  | cons line lines ih =>
    cases hoffer : a.offer line with | mk outcome b =>
    have hrun : a.feedEach (line :: lines) =
        (outcome :: (b.feedEach lines).1, (b.feedEach lines).2) := by
      rw [feedEach_cons, hoffer]
    cases outcome with
    | some fault =>
      -- the line is left out, and what follows it starts from the assembly before it
      obtain rfl := eq_of_offer_fault hoffer
      rw [hrun]
      exact ih b
    | none =>
      have haccepted : accepted (line :: lines) (none :: (b.feedEach lines).1) =
          line :: accepted lines (b.feedEach lines).1 := rfl
      rw [hrun, haccepted, feedEach_cons, hoffer, ih b, List.map_cons]

/-- The assembly after the first `k` of `lines`, from nothing placed. -/
def after (capacity : Nat) (lines : List SourceLine) (k : Nat) : Assembly :=
  ((empty capacity).feedEach (lines.take k)).2

/-- What each of `lines` comes to, from nothing placed. -/
def outcomes (capacity : Nat) (lines : List SourceLine) : List (Option Fault) :=
  ((empty capacity).feedEach lines).1

/-- Line `k` is offered to the assembly after the lines before it, and leads to the next. -/
theorem offer_after (capacity : Nat) {lines : List SourceLine} {k : Nat} {line : SourceLine}
    (hk : lines[k]? = some line) :
    ∃ outcome, (outcomes capacity lines)[k]? = some outcome ∧
      (after capacity lines k).offer line = (outcome, after capacity lines (k + 1)) := by
  obtain ⟨hlt, hget⟩ := List.getElem?_eq_some_iff.mp hk
  have hlength : ((empty capacity).feedEach (lines.take k)).1.length = k := by
    rw [length_feedEach, List.length_take_of_le (Nat.le_of_lt hlt)]
  have hcut : lines = lines.take k ++ line :: lines.drop (k + 1) := by
    rw [← hget, ← List.drop_eq_getElem_cons hlt, List.take_append_drop]
  have hnext : after capacity lines (k + 1) = ((after capacity lines k).offer line).2 := by
    rw [after, List.take_add_one, hk, feedEach_append]
    rfl
  have hrun := feedEach_append (empty capacity) (lines.take k) (line :: lines.drop (k + 1))
  rw [← hcut, feedEach_cons] at hrun
  refine ⟨((after capacity lines k).offer line).1, ?_, ?_⟩
  · rw [outcomes, hrun, List.getElem?_append_right (Nat.le_of_eq hlength), hlength, Nat.sub_self]
    rfl
  · rw [hnext]

end Assembly

/-- **Faulty lines leave no trace.**  Whatever lines are fed to an assembly, a line with a
    fault leaves it as it was; after every line the instructions tile the image up to the
    cursor, with the fill behind it; and the lines without a fault alone are all accepted
    again and lead to the same assembly. -/
theorem feedEach_leaves_no_trace (capacity : Nat) (lines : List SourceLine) :
    (∀ k line, lines[k]? = some line → ∃ outcome,
        (Assembly.outcomes capacity lines)[k]? = some outcome ∧
        (Assembly.after capacity lines k).offer line =
          (outcome, Assembly.after capacity lines (k + 1)) ∧
        (outcome ≠ none →
          Assembly.after capacity lines (k + 1) = Assembly.after capacity lines k)) ∧
      (∀ k, Tiled capacity (Assembly.after capacity lines k)) ∧
      (Assembly.empty capacity).feedEach
          (Assembly.accepted lines (Assembly.outcomes capacity lines)) =
        ((Assembly.accepted lines (Assembly.outcomes capacity lines)).map fun _ => none,
          Assembly.after capacity lines lines.length) := by
  refine ⟨?_, ?_, ?_⟩
  · intro k line hk
    obtain ⟨outcome, houtcome, hoffer⟩ := Assembly.offer_after capacity hk
    refine ⟨outcome, houtcome, hoffer, ?_⟩
    intro hfault
    obtain ⟨fault, rfl⟩ := Option.ne_none_iff_exists'.mp hfault
    exact Assembly.eq_of_offer_fault hoffer
  · intro k
    exact (Assembly.tiled_empty capacity).feedEach (lines.take k)
  · rw [Assembly.after, List.take_length]
    exact Assembly.feedEach_accepted _ lines

end MicroAsm
