import Xten.Log.Formatter
import Xten.Std.Delimiters

/-!
# Patterns

What a formatter writes, by recursion on its pattern, and the patterns that are written for texts
and items.
-/

namespace Xten.Log

open Std.Delimiters

/-- What is written for an event, or none if the pattern is in error. -/
def outputs (setting : Setting) (ev : LogEvent) (text : List Byte) : Option (List Byte) :=
  match text with
  | [] => some []
  | letter :: rest =>
      if letter ≠ 37 then
        (outputs setting ev rest).map (letter :: ·)
      else if rest.head? = some 37 then
        (outputs setting ev rest).map (37 :: ·)
      else
        match scanned : scanItem [] rest with
        | some ((str, fmt), behind) =>
            have := length_scanItem scanned
            (findItem str fmt).bind fun item =>
              (outputs setting ev behind).map (item.format setting ev ++ ·)
        | none => none
termination_by text.length

section Outputs

variable {setting : Setting} {ev : LogEvent} {letter : Byte} {rest : List Byte}

theorem outputs_plain (plain : letter ≠ 37) :
    outputs setting ev (letter :: rest) = (outputs setting ev rest).map (letter :: ·) := by
  rw [outputs, if_pos plain]

/-- The second percent sign is read again. -/
theorem outputs_percent : outputs setting ev (37 :: 37 :: rest) =
    (outputs setting ev (37 :: rest)).map (37 :: ·) := by
  rw [outputs, if_neg (fun ne => ne rfl), if_pos List.head?_cons]

theorem outputs_item (other : rest.head? ≠ some 37) {str fmt behind : List Byte}
    (scanned : scanItem [] rest = some ((str, fmt), behind)) :
    outputs setting ev (37 :: rest) = (findItem str fmt).bind fun item =>
      (outputs setting ev behind).map (item.format setting ev ++ ·) := by
  rw [outputs, if_neg (fun ne => ne rfl), if_neg other]
  split
  case h_1 found =>
    obtain ⟨names, rfl⟩ := Prod.mk.inj (Option.some.inj (found.symm.trans scanned))
    obtain ⟨rfl, rfl⟩ := Prod.mk.inj names
    rfl
  case h_2 found => cases found.symm.trans scanned

theorem outputs_unclosed (other : rest.head? ≠ some 37) (scanned : scanItem [] rest = none) :
    outputs setting ev (37 :: rest) = none := by
  rw [outputs, if_neg (fun ne => ne rfl), if_neg other]
  split
  case h_1 found => cases found.symm.trans scanned
  case h_2 => rfl

/-- A percent sign has a name behind it. -/
theorem outputs_sign : outputs setting ev [37] = none := by
  rw [@outputs_item _ _ [] (by simp) [] [] [] rfl]
  rfl

end Outputs

section Build

variable {setting : Setting} {ev : LogEvent}

/-- What the items of some tuples write. -/
def render (setting : Setting) (ev : LogEvent) (vec : List Parsed) : List Byte :=
  vec.flatMap fun parsed => parsed.build.1.format setting ev

theorem render_append (first second : List Parsed) : render setting ev (first ++ second) =
    render setting ev first ++ render setting ev second :=
  List.flatMap_append

/-- Every name is known. -/
def Known (vec : List Parsed) : Prop :=
  vec.all (fun parsed => parsed.build.2) = true

theorem known_append (first second : List Parsed) :
    Known (first ++ second) ↔ Known first ∧ Known second := by
  rw [Known, List.all_append, Bool.and_eq_true]
  rfl

theorem known_flush (nstr : List Byte) : Known (flush nstr) := by
  rw [flush]
  split
  case isTrue => rfl
  case isFalse => rfl

theorem render_flush (nstr : List Byte) : render setting ev (flush nstr) = nstr := by
  rw [flush]
  split
  case isTrue empty => exact empty.symm
  case isFalse => simp [render, Parsed.build, FormatterItem.format]

theorem known_item (str fmt : List Byte) :
    Known [.item str fmt] ↔ (findItem str fmt).isSome = true := by
  rw [Known, List.all_cons, List.all_nil, Bool.and_true, Parsed.build]
  cases findItem str fmt <;> rfl

theorem render_item {str fmt : List Byte} {item : FormatterItem} (found : findItem str fmt = some item) :
    render setting ev [.item str fmt] = item.format setting ev := by
  rw [render, List.flatMap_cons, List.flatMap_nil, List.append_nil, Parsed.build, found]

/-- The loop has no error exactly if there are outputs, and its tuples write them behind what has
been written before. -/
theorem initLoop_spec (setting : Setting) (ev : LogEvent) (vec : List Parsed) (nstr : List Byte)
    (error : Bool) (text : List Byte) :
    ((initLoop vec nstr error text).2 = false ∧ Known (initLoop vec nstr error text).1 ↔
      (error = false ∧ Known vec) ∧ (outputs setting ev text).isSome = true) ∧
    ∀ bytes, outputs setting ev text = some bytes →
      render setting ev (initLoop vec nstr error text).1 = render setting ev vec ++ nstr ++ bytes := by
  fun_induction initLoop vec nstr error text with
  | case1 vec nstr error =>
      have silent : outputs setting ev [] = some [] := by rw [outputs]
      rw [silent]
      refine ⟨?_, fun bytes wrote => ?_⟩
      · simp [known_append, known_flush]
      · obtain rfl := Option.some.inj wrote
        rw [render_append, render_flush, List.append_nil]
  | case2 vec nstr error letter rest plain ih =>
      rw [outputs_plain plain, Option.isSome_map]
      refine ⟨ih.1, fun bytes wrote => ?_⟩
      obtain ⟨more, later, rfl⟩ := Option.map_eq_some_iff.mp wrote
      rw [ih.2 more later]
      simp
  | case3 vec nstr error letter rest percent again ih =>
      obtain rfl := not_not.mp percent
      obtain ⟨rest, rfl⟩ := List.head?_eq_some_iff.mp again
      rw [outputs_percent, Option.isSome_map]
      refine ⟨ih.1, fun bytes wrote => ?_⟩
      obtain ⟨more, later, rfl⟩ := Option.map_eq_some_iff.mp wrote
      rw [ih.2 more later]
      simp
  | case4 vec nstr error letter rest percent other str fmt behind scanned _ ih =>
      obtain rfl := not_not.mp percent
      rw [outputs_item other scanned]
      cases found : findItem str fmt with
      | none =>
          refine ⟨?_, fun bytes wrote => by cases wrote⟩
          rw [ih.1, known_append, known_item, found]
          simp
      | some item =>
          rw [Option.bind_some, Option.isSome_map]
          refine ⟨?_, fun bytes wrote => ?_⟩
          · rw [ih.1, known_append, known_append, known_item, found]
            simp [known_flush]
          · obtain ⟨more, later, rfl⟩ := Option.map_eq_some_iff.mp wrote
            rw [ih.2 more later, render_append, render_append, render_flush, render_item found]
            simp
  | case5 vec nstr error letter rest percent other scanned ih =>
      obtain rfl := not_not.mp percent
      rw [outputs_unclosed other scanned]
      refine ⟨?_, fun bytes wrote => by cases wrote⟩
      rw [ih.1]
      simp

end Build

namespace Formatter

variable {setting : Setting} {ev : LogEvent} {text bytes : List Byte}

/-- A formatter that is not in error writes what the pattern says. -/
theorem bError_new (setting : Setting) (ev : LogEvent) (text : List Byte) :
    (new text).bError = false ↔ (outputs setting ev text).isSome = true := by
  have spec := (initLoop_spec setting ev [] [] false text).1
  rw [and_iff_right (show false = false ∧ Known [] from ⟨rfl, rfl⟩)] at spec
  rw [← spec, new, Known]
  simp

theorem format_new (wrote : outputs setting ev text = some bytes) :
    (new text).format setting ev = bytes := by
  have rendered := (initLoop_spec setting ev [] [] false text).2 bytes wrote
  rw [render, render, List.flatMap_nil, List.nil_append, List.nil_append] at rendered
  rw [format, new, ← rendered]
  simp only [List.flatMap_map]

end Formatter

/-- A piece of a pattern. -/
inductive Part where
  | literal (text : List Byte)
  | item (letter : Byte) (argument : Option (List Byte))
deriving DecidableEq, Repr

/-- How a piece is written, with every percent sign of a literal doubled. -/
def Part.pattern : Part → List Byte
  | .literal text => text.flatMap fun letter => if letter = 37 then [37, 37] else [letter]
  | .item letter none => [37, letter]
  | .item letter (some argument) => 37 :: letter :: 123 :: (argument ++ [125])

/-- What a piece stands for. -/
def Part.output (setting : Setting) (ev : LogEvent) : Part → List Byte
  | .literal text => text
  | .item letter argument =>
      ((findItem [letter] (argument.getD [])).map (FormatterItem.format setting ev)).getD []

def patternOf (parts : List Part) : List Byte :=
  parts.flatMap Part.pattern

def outputOf (setting : Setting) (ev : LogEvent) (parts : List Part) : List Byte :=
  parts.flatMap (Part.output setting ev)

/-- What may be behind an item: neither a letter nor a brace. -/
def Follows (text : List Byte) : Prop :=
  ∀ letter ∈ text.head?, isalpha letter = false ∧ letter ≠ 123 ∧ letter ≠ 125

/-- The items are known, no argument has a closing brace, and behind each item there is what may
be. -/
def WellFormed : List Part → Prop
  | [] => True
  | .literal _ :: rest => WellFormed rest
  | .item letter argument :: rest =>
      ((itemMap.lookup letter).isSome = true ∧ 125 ∉ argument.getD [] ∧
        Follows (patternOf rest)) ∧ WellFormed rest

/-- Pieces that a pattern can be made of. -/
def Pieces := { parts : List Part // WellFormed parts }

theorem patternOf_cons (part : Part) (parts : List Part) :
    patternOf (part :: parts) = part.pattern ++ patternOf parts :=
  List.flatMap_cons

theorem outputOf_cons (setting : Setting) (ev : LogEvent) (part : Part) (parts : List Part) :
    outputOf setting ev (part :: parts) = part.output setting ev ++ outputOf setting ev parts :=
  List.flatMap_cons

section Reading

variable {setting : Setting} {ev : LogEvent} {letter : Byte} {text rest : List Byte}

theorem scanFormat_argument {argument : List Byte} (closed : 125 ∉ argument)
    (fmt rest : List Byte) :
    scanFormat fmt (argument ++ 125 :: rest) = some (fmt ++ argument, rest) := by
  induction argument generalizing fmt with
  | nil => rw [List.nil_append, List.append_nil]; exact if_pos rfl
  | cons letter argument ih =>
      obtain ⟨other, closed⟩ := List.ne_and_not_mem_of_not_mem_cons closed
      rw [List.cons_append, scanFormat, if_neg (Ne.symm other), ih closed, List.append_assoc]
      rfl

theorem scanItem_end {str : List Byte} (follows : Follows rest) :
    scanItem str rest = some ((str, []), rest) := by
  cases rest with
  | nil => rfl
  | cons letter rest => exact if_pos (follows letter rfl)

/-- The names of the items are letters. -/
theorem alpha_of_known (known : (itemMap.lookup letter).isSome = true) : isalpha letter = true := by
  have all : ∀ entry ∈ itemMap, isalpha entry.1 = true := by decide
  obtain ⟨make, found⟩ := Option.isSome_iff_exists.mp known
  obtain ⟨before, after, same, -⟩ := List.lookup_eq_some_iff.mp found
  exact all (letter, make) (same ▸ List.mem_append_right before List.mem_cons_self)

theorem not_brace_of_alpha (alpha : isalpha letter = true) :
    letter ≠ 37 ∧ letter ≠ 123 ∧ letter ≠ 125 := by
  refine ⟨?_, ?_, ?_⟩
  all_goals
    rintro rfl
    exact absurd alpha (by decide)

theorem scanItem_letter (alpha : isalpha letter = true) (str : List Byte) :
    scanItem str (letter :: rest) = scanItem (str ++ [letter]) rest := by
  obtain ⟨-, notOpen, -⟩ := not_brace_of_alpha alpha
  rw [scanItem, if_neg (fun ends => Bool.noConfusion (alpha.symm.trans ends.1)), if_neg notOpen]

/-- An item is read as its letter and its argument. -/
theorem scanItem_pattern (known : (itemMap.lookup letter).isSome = true)
    {argument : Option (List Byte)} (closed : 125 ∉ argument.getD []) (follows : Follows rest) :
    ∃ behind, (Part.item letter argument).pattern ++ rest = 37 :: letter :: behind ∧
      scanItem [] (letter :: behind) = some (([letter], argument.getD []), rest) := by
  have alpha := alpha_of_known known
  cases argument with
  | none =>
      refine ⟨rest, rfl, ?_⟩
      rw [scanItem_letter alpha, List.nil_append, scanItem_end follows]
      rfl
  | some argument =>
      refine ⟨123 :: (argument ++ 125 :: rest), by simp [Part.pattern], ?_⟩
      have opens : scanItem [letter] (123 :: (argument ++ 125 :: rest)) =
          (scanFormat [] (argument ++ 125 :: rest)).map fun scanned =>
            (([letter], scanned.1), scanned.2) := by
        rw [scanItem, if_neg (fun ends => ends.2.1 rfl), if_pos rfl]
      rw [scanItem_letter alpha, List.nil_append, opens,
        scanFormat_argument (show 125 ∉ argument from closed)]
      rfl

/-- What an item writes is in front of what the rest of the pattern writes. -/
theorem outputs_pattern_item (known : (itemMap.lookup letter).isSome = true)
    {argument : Option (List Byte)} (closed : 125 ∉ argument.getD []) (follows : Follows rest) :
    outputs setting ev ((Part.item letter argument).pattern ++ rest) =
      (outputs setting ev rest).map ((Part.item letter argument).output setting ev ++ ·) := by
  obtain ⟨behind, same, scanned⟩ := scanItem_pattern known closed follows
  have notPercent := (not_brace_of_alpha (alpha_of_known known)).1
  obtain ⟨make, found⟩ := Option.isSome_iff_exists.mp known
  have item : findItem [letter] (argument.getD []) = some (make (argument.getD [])) := by
    rw [findItem, found, Option.map_some]
  rw [same, outputs_item (by simpa using notPercent) scanned, Part.output, item, Option.bind_some,
    Option.map_some, Option.getD_some]

/-- A literal without percent signs is written as it is. -/
theorem outputs_plain_text (plain : 37 ∉ text) (rest : List Byte) :
    outputs setting ev (text ++ rest) = (outputs setting ev rest).map (text ++ ·) := by
  induction text with
  | nil => simp
  | cons letter text ih =>
      obtain ⟨other, plain⟩ := List.ne_and_not_mem_of_not_mem_cons plain
      rw [List.cons_append, outputs_plain (Ne.symm other), ih plain, Option.map_map]
      rfl

theorem pattern_plain (plain : 37 ∉ text) : (Part.literal text).pattern = text := by
  induction text with
  | nil => rfl
  | cons letter text ih =>
      obtain ⟨other, plain⟩ := List.ne_and_not_mem_of_not_mem_cons plain
      have rest := ih plain
      rw [Part.pattern] at rest
      rw [Part.pattern, List.flatMap_cons, if_neg (Ne.symm other), rest]
      rfl

theorem outputs_of_plain {parts : List Part} (wellFormed : WellFormed parts)
    (plain : ∀ text, .literal text ∈ parts → 37 ∉ text) :
    outputs setting ev (patternOf parts) = some (outputOf setting ev parts) := by
  induction parts with
  | nil => rw [show patternOf [] = [] from rfl, outputs]; rfl
  | cons part parts ih =>
      have others : ∀ text, .literal text ∈ parts → 37 ∉ text := fun text member =>
        plain text (List.mem_cons_of_mem _ member)
      rw [patternOf_cons, outputOf_cons]
      cases part with
      | literal text =>
          have here := plain text List.mem_cons_self
          rw [pattern_plain here, outputs_plain_text here, ih wellFormed others]
          rfl
      | item letter argument =>
          obtain ⟨⟨known, closed, follows⟩, wellFormed⟩ := wellFormed
          rw [outputs_pattern_item known closed follows, ih wellFormed others]
          rfl

end Reading

theorem pattern_cons (letter : Byte) (text : List Byte) :
    (Part.literal (letter :: text)).pattern =
      (if letter = 37 then [37, 37] else [letter]) ++ (Part.literal text).pattern :=
  List.flatMap_cons

section Misreading

variable {letter : Byte} {rest bytes : List Byte}

/-- A setting in which every date is a blank. -/
def quietSetting : Setting :=
  ⟨fun _ _ => [32], .debug⟩

/-- An event whose texts are blanks. -/
def quiet : LogEvent :=
  ⟨[32], [32], 0, 0, 0, 0, 0, [32], [32]⟩

/-- What an item writes for it begins neither with a percent sign nor with the letter of the item. -/
theorem quiet_item (known : (itemMap.lookup letter).isSome = true) (fmt : List Byte) :
    ∃ item first more, findItem [letter] fmt = some item ∧
      item.format quietSetting quiet = first :: more ∧ first ≠ 37 ∧ first ≠ letter := by
  have all : ∀ entry ∈ itemMap, ∃ first more, ∀ fmt,
      (entry.2 fmt).format quietSetting quiet = first :: more ∧ first ≠ 37 ∧ first ≠ entry.1 := by
    rw [itemMap]
    repeat' refine List.forall_mem_cons.mpr ⟨⟨_, _, fun _ => ⟨rfl, by decide, by decide⟩⟩, ?_⟩
    exact fun _ none => absurd none List.not_mem_nil
  obtain ⟨make, found⟩ := Option.isSome_iff_exists.mp known
  obtain ⟨before, after, same, -⟩ := List.lookup_eq_some_iff.mp found
  obtain ⟨first, more, written⟩ :=
    all (letter, make) (same ▸ List.mem_append_right before List.mem_cons_self)
  exact ⟨make fmt, first, more, by rw [findItem, found, Option.map_some], written fmt⟩

theorem findItem_isSome {str fmt : List Byte} {item : FormatterItem}
    (found : findItem str fmt = some item) :
    ∃ letter, str = [letter] ∧ (itemMap.lookup letter).isSome = true := by
  match str with
  | [letter] =>
      rw [findItem] at found
      obtain ⟨make, known, -⟩ := Option.map_eq_some_iff.mp found
      exact ⟨letter, rfl, Option.isSome_iff_exists.mpr ⟨make, known⟩⟩
  | [] => cases found
  | _ :: _ :: _ => cases found

/-- The name that is read begins with the first letter. -/
theorem scanItem_starts {str text found fmt behind : List Byte}
    (scanned : scanItem str text = some ((found, fmt), behind)) : str <+: found := by
  induction text generalizing str with
  | nil =>
      obtain ⟨names, -⟩ := Prod.mk.inj (Option.some.inj scanned)
      obtain ⟨rfl, -⟩ := Prod.mk.inj names
      exact List.prefix_refl _
  | cons letter rest ih =>
      rw [scanItem] at scanned
      split at scanned
      case isTrue =>
        obtain ⟨names, -⟩ := Prod.mk.inj (Option.some.inj scanned)
        obtain ⟨rfl, -⟩ := Prod.mk.inj names
        exact List.prefix_refl _
      case isFalse =>
        split at scanned
        case isTrue =>
          obtain ⟨last, -, same⟩ := Option.map_eq_some_iff.mp scanned
          obtain ⟨names, -⟩ := Prod.mk.inj same
          obtain ⟨rfl, -⟩ := Prod.mk.inj names
          exact List.prefix_refl _
        case isFalse => exact (List.prefix_append str [letter]).trans (ih scanned)

/-- A name of one letter is the first letter. -/
theorem scanItem_single {name : Byte} {fmt behind : List Byte}
    (scanned : scanItem [] (letter :: rest) = some (([name], fmt), behind)) : name = letter := by
  rw [scanItem] at scanned
  split at scanned
  case isTrue => cases scanned
  case isFalse =>
    split at scanned
    case isTrue =>
      obtain ⟨last, -, same⟩ := Option.map_eq_some_iff.mp scanned
      cases same
    case isFalse =>
      obtain ⟨more, same⟩ := scanItem_starts scanned
      exact (List.cons.inj same).1.symm

/-- Behind a percent sign a letter is taken for an item, or there is an error. -/
theorem outputs_letter (other : letter ≠ 37)
    (wrote : outputs quietSetting quiet (37 :: letter :: rest) = some bytes) :
    ∃ first more, bytes = first :: more ∧ first ≠ letter := by
  have notPercent : (letter :: rest).head? ≠ some 37 := by simpa using other
  cases scanned : scanItem [] (letter :: rest) with
  | none => cases wrote.symm.trans (outputs_unclosed notPercent scanned)
  | some found =>
      obtain ⟨⟨str, fmt⟩, behind⟩ := found
      rw [outputs_item notPercent scanned] at wrote
      obtain ⟨item, found, wrote⟩ := Option.bind_eq_some_iff.mp wrote
      obtain ⟨more, -, rfl⟩ := Option.map_eq_some_iff.mp wrote
      obtain ⟨name, rfl, known⟩ := findItem_isSome found
      obtain ⟨item', first, text, found', format, -, differs⟩ := quiet_item known fmt
      obtain rfl := Option.some.inj (found.symm.trans found')
      refine ⟨first, text ++ more, by rw [format]; rfl, ?_⟩
      rwa [← scanItem_single scanned]

/-- In front of a literal, if it is so in front of what is behind the literal: a percent sign of
it is one more that has been written. -/
theorem misread_literal {parts : List Part}
    (rest : ∀ signs bytes, outputs quietSetting quiet (37 :: patternOf parts) = some bytes →
      List.replicate signs 37 ++ bytes ≠ outputOf quietSetting quiet parts)
    (text : List Byte) (signs : Nat)
    (wrote : outputs quietSetting quiet (37 :: ((Part.literal text).pattern ++ patternOf parts)) =
      some bytes) :
    List.replicate signs 37 ++ bytes ≠ text ++ outputOf quietSetting quiet parts := by
  induction text generalizing signs bytes with
  | nil => exact rest signs bytes wrote
  | cons letter text ih =>
      rw [pattern_cons] at wrote
      split at wrote
      case isTrue percent =>
        rw [List.append_assoc, List.cons_append, List.cons_append, List.nil_append,
          outputs_percent, outputs_percent] at wrote
        obtain ⟨later, second, rfl⟩ := Option.map_eq_some_iff.mp wrote
        obtain ⟨latest, third, rfl⟩ := Option.map_eq_some_iff.mp second
        have shifted : List.replicate signs (37 : Byte) ++ 37 :: 37 :: latest =
            37 :: (List.replicate (signs + 1) 37 ++ latest) := by
          rw [List.replicate_succ', List.append_assoc, ← List.cons_append,
            ← List.replicate_succ, List.replicate_succ', List.append_assoc]
          rfl
        rw [shifted, percent]
        exact fun equal => ih (signs + 1) third (List.cons.inj equal).2
      case isFalse other =>
        intro equal
        cases signs with
        | zero =>
            obtain ⟨first, more, rfl, differs⟩ := outputs_letter other wrote
            exact differs (List.cons.inj equal).1
        | succ signs => exact other (List.cons.inj equal).1.symm

/-- One percent sign more in front of a pattern, and any number of them in front of what it writes:
there is an error, or it is not what the pieces stand for. -/
theorem misread {parts : List Part} (wellFormed : WellFormed parts) (signs : Nat)
    (wrote : outputs quietSetting quiet (37 :: patternOf parts) = some bytes) :
    List.replicate signs 37 ++ bytes ≠ outputOf quietSetting quiet parts := by
  induction parts generalizing signs bytes with
  | nil =>
      cases (@outputs_sign quietSetting quiet).symm.trans wrote
  | cons part parts ih =>
      rw [patternOf_cons] at wrote
      rw [outputOf_cons]
      cases part with
      | item letter argument =>
          obtain ⟨⟨known, closed, follows⟩, wellFormed⟩ := wellFormed
          obtain ⟨item, first, more, found, format, notPercent, -⟩ :=
            quiet_item known (argument.getD [])
          obtain ⟨behind, same, -⟩ := scanItem_pattern known closed follows
          rw [same, outputs_percent] at wrote
          obtain ⟨later, -, rfl⟩ := Option.map_eq_some_iff.mp wrote
          rw [Part.output, found, Option.map_some, Option.getD_some, format]
          intro equal
          cases signs with
          | zero => exact notPercent (List.cons.inj equal).1.symm
          | succ signs => exact notPercent (List.cons.inj equal).1.symm
      | literal text =>
          rw [Part.output]
          exact misread_literal (fun signs bytes => ih wellFormed signs) text signs wrote

/-- A percent sign in a literal is one more sign in front of the rest of the pattern. -/
theorem outputs_of_percent {parts : List Part} (wellFormed : WellFormed parts) {text : List Byte}
    (member : .literal text ∈ parts) (percent : 37 ∈ text) :
    outputs quietSetting quiet (patternOf parts) ≠ some (outputOf quietSetting quiet parts) := by
  induction parts with
  | nil => cases member
  | cons part parts ih =>
      rw [patternOf_cons, outputOf_cons]
      cases part with
      | item letter argument =>
          obtain ⟨⟨known, closed, follows⟩, wellFormed⟩ := wellFormed
          have later : .literal text ∈ parts := (List.mem_cons.mp member).resolve_left nofun
          rw [outputs_pattern_item known closed follows]
          intro wrote
          obtain ⟨bytes, rest, same⟩ := Option.map_eq_some_iff.mp wrote
          rw [List.append_cancel_left same] at rest
          exact ih wellFormed later rest
      | literal here =>
          obtain plain | ⟨before, after, plain, rfl⟩ := absent_or_split 37 here
          · have later : .literal text ∈ parts := by
              refine (List.mem_cons.mp member).resolve_left ?_
              rintro ⟨⟩
              exact plain percent
            rw [pattern_plain plain, outputs_plain_text plain]
            intro wrote
            obtain ⟨bytes, rest, same⟩ := Option.map_eq_some_iff.mp wrote
            rw [Part.output] at same
            rw [List.append_cancel_left same] at rest
            exact ih wellFormed later rest
          · have split : (Part.literal (before ++ 37 :: after)).pattern ++ patternOf parts =
                before ++ 37 :: 37 :: patternOf (.literal after :: parts) := by
              have first := pattern_plain plain
              rw [Part.pattern] at first
              rw [patternOf_cons, Part.pattern, List.flatMap_append, first, List.flatMap_cons,
                Part.pattern, List.append_assoc, List.append_assoc]
              rfl
            rw [split, outputs_plain_text plain, outputs_percent, Part.output]
            intro wrote
            obtain ⟨bytes, rest, same⟩ := Option.map_eq_some_iff.mp wrote
            obtain ⟨later, third, rfl⟩ := Option.map_eq_some_iff.mp rest
            rw [List.append_assoc, List.append_cancel_left_eq] at same
            exact @misread _ (.literal after :: parts) wellFormed 0 third
              (List.cons.inj same).2

end Misreading

/-- The formatter of some pieces is not in error, and formats every event to what they stand for,
exactly if no literal has a percent sign. -/
theorem formats_iff (pieces : Pieces) :
    ((Formatter.new (patternOf pieces.1)).bError = false ∧ ∀ setting ev,
      (Formatter.new (patternOf pieces.1)).format setting ev = outputOf setting ev pieces.1) ↔
    ∀ text, .literal text ∈ pieces.1 → 37 ∉ text := by
  constructor
  · rintro ⟨fine, formats⟩ text member percent
    obtain ⟨bytes, wrote⟩ := Option.isSome_iff_exists.mp
      ((Formatter.bError_new quietSetting quiet _).mp fine)
    have same := formats quietSetting quiet
    rw [Formatter.format_new wrote] at same
    rw [same] at wrote
    exact outputs_of_percent pieces.2 member percent wrote
  · intro plain
    refine ⟨?_, fun setting ev => Formatter.format_new (outputs_of_plain pieces.2 plain)⟩
    rw [Formatter.bError_new quietSetting quiet, outputs_of_plain pieces.2 plain]
    rfl

/-- A percent sign is in error at the end of a pattern, and takes the letter that is behind it. -/
theorem not_formats : (Formatter.new (patternOf [.literal [37]])).bError = true ∧
    (Formatter.new (patternOf [.literal [37, 109]])).format quietSetting quiet = [37, 32] := by
  constructor
  · refine Bool.eq_true_of_not_eq_false fun fine => ?_
    rw [Formatter.bError_new quietSetting quiet, show patternOf [.literal [37]] = [37, 37] from rfl,
      outputs_percent, outputs_sign] at fine
    cases fine
  · refine Formatter.format_new ?_
    have silent : outputs quietSetting quiet [] = some [] := by rw [outputs]
    rw [show patternOf [.literal [37, 109]] = [37, 37, 109] from rfl, outputs_percent,
      @outputs_item _ _ [109] (by simp) [109] [] [] rfl, silent]
    rfl

end Xten.Log
