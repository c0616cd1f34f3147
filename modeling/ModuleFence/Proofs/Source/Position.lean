import ModuleFence.Proofs.Source.Extraction
import ModuleFence.Proofs.Text.LineEnds
import ModuleFence.Source.Loading
import ModuleFence.Span

set_option autoImplicit false

namespace ModuleFence.Vue

namespace Marked

/-- The bytes that are lost in the place of a character. -/
def loss (mark : Marked) : Nat :=
  Utf8.width mark.character - Utf8.width mark.shown

/-- A character that is kept, or is one of the ASCII characters, which are one byte wide. -/
def Narrow (mark : Marked) : Prop :=
  mark.kept = false → mark.character.val ≤ 127

instance (mark : Marked) : Decidable mark.Narrow :=
  inferInstanceAs (Decidable (_ → _))

theorem width_shown_of_dropped {mark : Marked} (dropped : mark.kept = false) :
    Utf8.width mark.shown = 1 := by
  rw [shown, dropped, blanked]
  simp only [Bool.false_eq_true, if_false]
  split <;> rfl

theorem width_character (mark : Marked) :
    Utf8.width mark.character = Utf8.width mark.shown + mark.loss := by
  have fits : Utf8.width mark.shown ≤ Utf8.width mark.character := by
    cases dropped : mark.kept with
    | true => rw [shown, dropped, if_pos rfl]
    | false =>
      rw [width_shown_of_dropped dropped]
      exact Char.utf8Size_pos mark.character
  rw [loss, Nat.add_sub_cancel' fits]

theorem loss_eq_zero_iff (mark : Marked) : mark.loss = 0 ↔ mark.Narrow := by
  have width := mark.width_character
  rw [Narrow]
  cases dropped : mark.kept with
  | true =>
    have same : mark.shown = mark.character := by rw [shown, dropped, if_pos rfl]
    rw [same] at width
    exact iff_of_true (by omega) fun impossible => absurd impossible (by decide)
  | false =>
    rw [width_shown_of_dropped dropped] at width
    have ascii : Utf8.width mark.character = 1 ↔ mark.character.val ≤ 127 :=
      Char.utf8Size_eq_one_iff
    constructor
    · intro kept _
      exact ascii.mp (by omega)
    · intro narrow
      have one := ascii.mpr (narrow rfl)
      omega

end Marked

/-- The bytes that are lost in the places of some characters. -/
def lossOf (marks : List Marked) : Nat :=
  (marks.map Marked.loss).sum

/-- The marks behind the last end of a line. -/
def lastLine (marks : List Marked) : List Marked :=
  marks.rtakeWhile fun mark => mark.character ≠ '\n'

theorem lossOf_eq_zero_iff (marks : List Marked) :
    lossOf marks = 0 ↔ ∀ mark ∈ marks, mark.Narrow := by
  induction marks with
  | nil => exact iff_of_true rfl fun _ member => nomatch member
  | cons mark rest ih =>
    rw [lossOf] at ih ⊢
    rw [List.map_cons, List.sum_cons, Nat.add_eq_zero_iff, List.forall_mem_cons, ih,
      mark.loss_eq_zero_iff]

theorem sum_width_character (marks : List Marked) :
    ((marks.map Marked.character).map Utf8.width).sum =
      ((marks.map Marked.shown).map Utf8.width).sum + lossOf marks := by
  induction marks with
  | nil => rfl
  | cons mark rest ih =>
    rw [lossOf] at ih ⊢
    simp only [List.map_cons, List.sum_cons, ih, mark.width_character]
    omega

theorem count_shown (marks : List Marked) :
    (marks.map Marked.shown).count '\n' = (marks.map Marked.character).count '\n' := by
  simp only [List.count_eq_countP, List.countP_map]
  refine List.countP_congr fun mark _ => ?_
  simp only [Function.comp_apply, beq_iff_eq, mark.shown_eq_newline_iff]

theorem map_lastLine (marks : List Marked) (face : Marked → Char)
    (ends : ∀ mark, face mark = '\n' ↔ mark.character = '\n') :
    (lastLine marks).map face =
      (marks.map face).rtakeWhile fun character => character ≠ '\n' := by
  have same : (fun mark : Marked => decide (mark.character ≠ '\n')) =
      (fun character => decide (character ≠ '\n')) ∘ face := by
    funext mark
    simp only [Function.comp_apply, ne_eq, ends]
  rw [lastLine, same, List.rtakeWhile, List.rtakeWhile, ← List.map_reverse, List.takeWhile_map,
    List.map_reverse]

section Places

variable (marks : List Marked)

theorem row_behind_shown :
    (Point.behind (marks.map Marked.shown)).row =
      (Point.behind (marks.map Marked.character)).row := by
  rw [Point.row_behind, Point.row_behind, count_shown]

theorem column_behind_character :
    (Point.behind (marks.map Marked.character)).column =
      (Point.behind (marks.map Marked.shown)).column + lossOf (lastLine marks) := by
  rw [Point.column_behind, Point.column_behind, ← map_lastLine marks _ fun _ => Iff.rfl,
    ← map_lastLine marks _ Marked.shown_eq_newline_iff, sum_width_character]

theorem byte_behind_character :
    (Point.behind (marks.map Marked.character)).byte =
      (Point.behind (marks.map Marked.shown)).byte + lossOf marks := by
  rw [Point.byte_behind, Point.byte_behind, sum_width_character]

/-- Behind narrow characters nothing is moved. -/
theorem behind_shown_of_narrow (narrow : ∀ mark ∈ marks, mark.Narrow) :
    Point.behind (marks.map Marked.shown) = Point.behind (marks.map Marked.character) := by
  have line : ∀ mark ∈ lastLine marks, mark.Narrow :=
    fun mark member => narrow mark ((List.rtakeWhile_suffix _ marks).subset member)
  have row := row_behind_shown marks
  have column := column_behind_character marks
  have byte := byte_behind_character marks
  rw [(lossOf_eq_zero_iff _).mpr line, Nat.add_zero] at column
  rw [(lossOf_eq_zero_iff _).mpr narrow, Nat.add_zero] at byte
  generalize Point.behind (marks.map Marked.shown) = moved at *
  generalize Point.behind (marks.map Marked.character) = place at *
  cases moved
  cases place
  simp only at row column byte
  rw [row, column, byte]

end Places

theorem place_of_original (text : List Char) (count : Nat) :
    ((Script.Cursor.start text).advance count).point =
      Point.behind (((marked text).take count).map Marked.character) := by
  rw [Point.point_advance_start, List.map_take, map_character_marked]

theorem place_of_extracted (text : List Char) (count : Nat) :
    ((Script.Cursor.start (extractScript text)).advance count).point =
      Point.behind (((marked text).take count).map Marked.shown) := by
  rw [Point.point_advance_start, List.map_take, map_shown_marked]

/-- A character that is kept stands in the file and in what extraction leaves of it. -/
theorem getElem?_of_kept {text : List Char} {index : Nat} {character : Char}
    (kept : (marked text)[index]? = some ⟨character, true⟩) :
    text[index]? = some character ∧ (extractScript text)[index]? = some character := by
  have original : (marked text)[index]?.map Marked.character = text[index]? := by
    rw [← List.getElem?_map, map_character_marked]
  have extracted : (marked text)[index]?.map Marked.shown = (extractScript text)[index]? := by
    rw [← List.getElem?_map, map_shown_marked]
  rw [← original, ← extracted, kept]
  exact ⟨rfl, rfl⟩

theorem byte_place_eq_iff (text : List Char) (index : Nat) :
    ((Script.Cursor.start text).advance index).point.byte =
        ((Script.Cursor.start (extractScript text)).advance index).point.byte ↔
      ∀ mark ∈ (marked text).take index, mark.Narrow := by
  have byte := byte_behind_character ((marked text).take index)
  rw [place_of_original, place_of_extracted, ← lossOf_eq_zero_iff]
  omega

theorem place_eq_of_narrow {text : List Char} {index : Nat}
    (narrow : ∀ mark ∈ (marked text).take index, mark.Narrow) :
    ((Script.Cursor.start text).advance index).point =
      ((Script.Cursor.start (extractScript text)).advance index).point := by
  rw [place_of_original, place_of_extracted, behind_shown_of_narrow _ narrow]

/-- What extraction does to places. A character that is kept stands where it stood among the
characters, on the same line. Its column and its offset are less by the bytes that are lost before
it, on its line and in the file, so that they stay the same exactly behind narrow characters, and so
does a range that ends there. -/
theorem place_extractScript (text : List Char) (index : Nat) :
    let place (source : List Char) (count : Nat) :=
      ((Script.Cursor.start source).advance count).point
    let before := (marked text).take index
    let old := place text index
    let new := place (extractScript text) index
    (∀ character, (marked text)[index]? = some ⟨character, true⟩ →
      text[index]? = some character ∧ (extractScript text)[index]? = some character) ∧
    old.row = new.row ∧
    old.column = new.column + lossOf (lastLine before) ∧
    old.byte = new.byte + lossOf before ∧
    (old.column = new.column ↔ ∀ mark ∈ lastLine before, mark.Narrow) ∧
    (old.byte = new.byte ↔ ∀ mark ∈ before, mark.Narrow) ∧
    ∀ start ≤ index,
      (Span.between (place text start) old = Span.between (place (extractScript text) start) new ↔
        ∀ mark ∈ before, mark.Narrow) := by
  intro place before old new
  have old_eq : old = Point.behind (before.map Marked.character) := place_of_original text index
  have new_eq : new = Point.behind (before.map Marked.shown) := place_of_extracted text index
  have column := column_behind_character before
  have byte := byte_behind_character before
  rw [← old_eq, ← new_eq] at column byte
  refine ⟨fun character kept => getElem?_of_kept kept, ?_, column, byte, ?_,
    byte_place_eq_iff text index, fun start early => ⟨fun same => ?_, fun narrow => ?_⟩⟩
  · rw [old_eq, new_eq, row_behind_shown]
  · rw [← lossOf_eq_zero_iff]
    omega
  · have ends := congrArg Span.endByte same
    exact (byte_place_eq_iff text index).mp (Int.ofNat.inj ends)
  · have first : ∀ mark ∈ (marked text).take start, mark.Narrow :=
      fun mark member => narrow mark (List.take_subset_take_left _ early member)
    have starts : place text start = place (extractScript text) start := place_eq_of_narrow first
    have stops : old = new := place_eq_of_narrow narrow
    rw [starts, stops]

/-- A letter of two bytes in front of a script moves it by one column and one byte. -/
theorem place_extractScript_of_wide :
    let text := "é<script>f()</script>".toList
    let place (source : List Char) := ((Script.Cursor.start source).advance 9).point
    (marked text)[9]? = some ⟨'f', true⟩ ∧
      place text = ⟨0, 10, 10⟩ ∧ place (extractScript text) = ⟨0, 9, 9⟩ := by
  decide +kernel

/-- Where the second part of a Vue file starts in what is linted of it. Reading the file makes every
return and newline one character, and extraction makes blanks of one byte: the line is that of the
file, the column falls behind by what extraction loses on it, and the offset by what both lose. Even
in a file that is all ASCII, the offset stays the same only where no return stands before a newline. -/
theorem load_place {files : FileSystem} {path : Path} {bytes : List UInt8} {front rest : List Char}
    (vue : Discovery.foldedSuffix path = SourceFile.vueSuffix)
    (read : files.readBytes path = .ok bytes) (decoded : Utf8.decode bytes = .ok (front ++ rest))
    (apart : Lines.Apart front rest) :
    ∃ source, SourceFile.load files path = .ok ⟨path, source⟩ ∧
      let index := (Lines.normalize front).length
      let before := (marked (Lines.normalize (front ++ rest))).take index
      let place := ((Script.Cursor.start source).advance index).point
      place.row + Lines.pairs front = front.count '\r' + front.count '\n' ∧
      ((Lines.lastLine front).map Utf8.width).sum = place.column + lossOf (lastLine before) ∧
      (front.map Utf8.width).sum = place.byte + lossOf before + Lines.pairs front ∧
      ((front.map Utf8.width).sum = place.byte ↔
        (∀ mark ∈ before, mark.Narrow) ∧ Lines.pairs front = 0) := by
  let text := Lines.normalize (front ++ rest)
  have loaded : SourceFile.load files path = .ok ⟨path, extractScript text⟩ := by
    rw [SourceFile.load, FileSystem.readText, read]
    simp only [bind, Except.bind, decoded, pure, Except.pure, SourceFile.content, if_pos vue, text]
  refine ⟨_, loaded, ?_⟩
  intro index before place
  have original : Point.behind (before.map Marked.character) =
      Point.behind (Lines.normalize front) := by
    rw [← place_of_original, Point.point_advance_start, Lines.normalize_append apart,
      List.take_left]
  have extracted : place = Point.behind (before.map Marked.shown) := place_of_extracted text index
  obtain ⟨lines, line, offset⟩ := Lines.behind_normalize front
  rw [← original] at lines line offset
  rw [column_behind_character, ← extracted] at line
  rw [byte_behind_character, ← extracted] at offset
  refine ⟨?_, line, offset, ?_⟩
  · rw [extracted, row_behind_shown, lines]
  · rw [← lossOf_eq_zero_iff]
    omega

end ModuleFence.Vue
