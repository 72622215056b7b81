import DotGrid.Command.Run
import DotGrid.Proofs.Frame.Batches

/-!
# The output of a run

What a run writes is one line for the time of each frame and one line for each of its rows (`textOfLines_lines`), and
the archive has the times and the values of the same frames (`archive_eq`). A grid of a positive size has a fault
only if its values are too many for the memory (`gridFault?_eq_none`, `gridFault?_eq_some`).
-/

namespace DotGrid.Command

/-! ## Lines of the output -/

/-- Lines as text, each with a line feed behind it. -/
def textOfLines (lines : List String) : String := String.join (lines.map (· ++ "\n"))

/-- What a run writes to standard output. -/
def Report.written (r : Report) : String := textOfLines r.output

/-- The lines of a frame: its time and its rows. -/
def frameLines (f : Frame) : List String := ("t=" ++ shownTime f.time) :: f.values.map drawnRow

theorem textOfLines_nil : textOfLines [] = "" := rfl

theorem textOfLines_cons (line : String) (lines : List String) :
    textOfLines (line :: lines) = line ++ "\n" ++ textOfLines lines := by
  rw [textOfLines, List.map_cons, String.join_cons]
  rfl

theorem textOfLines_append (lines lines' : List String) :
    textOfLines (lines ++ lines') = textOfLines lines ++ textOfLines lines' := by
  induction lines with
  | nil => simp [textOfLines_nil]
  | cons line lines ih =>
    rw [List.cons_append, textOfLines_cons, textOfLines_cons, ih]
    exact (String.append_assoc ..).symm

/-- Lines that are joined make up one text, with the line feed of the last one behind it. -/
theorem intercalate_lines {lines : List String} (h : lines ≠ []) :
    String.intercalate "\n" lines ++ "\n" = textOfLines lines := by
  induction lines with
  | nil => exact absurd rfl h
  | cons line lines ih =>
    cases lines with
    | nil => simp [textOfLines_cons, textOfLines_nil]
    | cons next lines =>
      rw [String.intercalate_cons_cons, textOfLines_cons, ← ih (List.cons_ne_nil _ _), String.append_assoc]

theorem textOfLines_frame {f : Frame} (h : f.values ≠ []) :
    textOfLines ["t=" ++ shownTime f.time, f.text] = textOfLines (frameLines f) := by
  have hrows : f.values.map drawnRow ≠ [] := by simpa using h
  rw [frameLines, textOfLines_cons, textOfLines_cons, textOfLines_cons, textOfLines_nil, Frame.text, drawing,
    intercalate_lines hrows, String.append_empty]

theorem textOfLines_lines {frames : List Frame} (h : ∀ f ∈ frames, f.values ≠ []) :
    textOfLines (Job.lines frames) = textOfLines (frames.flatMap frameLines) := by
  induction frames with
  | nil => rfl
  | cons f frames ih =>
    obtain ⟨hf, hframes⟩ := List.forall_mem_cons.mp h
    have hlines : Job.lines (f :: frames) = ["t=" ++ shownTime f.time, f.text] ++ Job.lines frames := rfl
    rw [hlines, List.flatMap_cons, textOfLines_append, textOfLines_append, textOfLines_frame hf, ih hframes]

/-! ## Frames -/

theorem le_square {size : Int} (h : 1 ≤ size) : size ≤ 8 * size * size := by
  have hsquare : 1 * size ≤ 8 * size * size := Int.mul_le_mul_of_nonneg_right (by omega) (by omega)
  rwa [Int.one_mul] at hsquare

theorem gridFault?_eq_none {size : Int} (h : 1 ≤ size) (hfits : 8 * size * size < memoryLimit) :
    gridFault? size = none := by
  have hlimit : (0 : Int) < memoryLimit := by decide
  have hsquare := le_square h
  rw [gridFault?, if_neg (by omega), if_neg (by omega), if_neg (by omega)]

theorem gridFault?_eq_some {size : Int} (h : 1 ≤ size) (hlarge : memoryLimit ≤ 8 * size * size) :
    ∃ fault ∈ [Fault.sizeTooLarge, .gridTooLarge], gridFault? size = some fault := by
  by_cases hlimit : size < -memoryLimit ∨ memoryLimit ≤ size
  · exact ⟨_, List.mem_cons_self, if_pos hlimit⟩
  · refine ⟨_, List.mem_cons_of_mem _ List.mem_cons_self, ?_⟩
    rw [gridFault?, if_neg hlimit, if_neg (by omega), if_pos hlarge]

theorem glyph_ne_lineFeed (d : Double) : d.glyph ≠ '\n' := by
  have hpalette : ∀ (glyphs : List Char) (n : Nat), '\n' ∉ glyphs → glyphs.getD n ' ' ≠ '\n' := by
    intro glyphs n hglyphs heq
    rw [List.getD_eq_getElem?_getD] at heq
    cases hn : glyphs[n]? with
    | none => simp [hn] at heq
    | some c =>
      rw [hn, Option.getD_some] at heq
      exact hglyphs (heq ▸ List.mem_of_getElem? hn)
  rw [Double.glyph]
  split
  · exact hpalette _ _ (by decide)
  · exact hpalette _ _ (by decide)

/-- A row is drawn on one line, with one character for each value. -/
theorem drawnRow_line (row : List Double) :
    (drawnRow row).toList.length = row.length ∧ '\n' ∉ (drawnRow row).toList := by
  rw [drawnRow, String.toList_ofList]
  refine ⟨List.length_map _, fun h => ?_⟩
  obtain ⟨d, -, hd⟩ := List.mem_map.mp h
  exact glyph_ne_lineFeed d hd

theorem frame_square (f : DotFunction) (t : Number) (size : Nat) (clamp : Bool) :
    (f.frame t size clamp).values.length = size ∧ ∀ row ∈ (f.frame t size clamp).values, row.length = size := by
  simp [DotFunction.frame, gridOf]

theorem batch_eq_error (f : DotFunction) {c : RenderConfig} {fault : Fault} (hfault : gridFault? c.size = some fault)
    {times : List Double} (h : times ≠ []) : f.batch c times = .error fault := by
  obtain ⟨t, ts, rfl⟩ := List.exists_cons_of_ne_nil h
  have hrender : f.render (.real t) c.size c.clamp = .error fault := by rw [DotFunction.render, hfault]
  rw [DotFunction.batch, List.mapM_cons, hrender]
  rfl

/-- The archive of frames has their times and all of their values. -/
theorem archive_eq (f : DotFunction) (path : String) {size : Nat} (clamp : Bool) {times : List Double}
    (h : times ≠ []) :
    let frames := times.map fun t => f.frame (.real t) size clamp
    Dump.archive ⟨path, frames⟩ = Archive.zip
      [Archive.gridMember "times" [times.length] times,
        Archive.gridMember "frames" [times.length, size, size] (frames.flatMap fun f => f.values.flatten)] := by
  intro frames
  have hcount : frames.length = times.length := List.length_map _
  have htimes : (frames.map fun f => (f.time.toDouble.toOption).getD .nan) = times := by
    rw [List.map_map]
    exact List.map_id times
  have hsize : (frames.head?.map Frame.size).getD 0 = size := by
    obtain ⟨t, ts, rfl⟩ := List.exists_cons_of_ne_nil h
    rfl
  simp only [Dump.archive, hcount, htimes, hsize]

end DotGrid.Command
