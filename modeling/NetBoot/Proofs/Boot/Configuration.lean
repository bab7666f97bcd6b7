/-
  NetBoot.Proofs.Boot.Configuration — a configuration file, line by line.

  What a line assigns is written as a format: a property with blanks around its name and its value
  (`Assigns`), and as the reasons why a line assigns nothing (`Idle`). The two are what is read off a
  line (`assignment?_eq_some_iff`, `assignment?_eq_none_iff`), so each line is one or the other.

  A text assigns what its lines assign one after the other: the carriage return before a line feed is
  a blank and the line behind the last line feed is empty, so cutting at line feeds is all there is to
  it (`assignments_eq`). What is kept is what a loop over the lines keeps that stops adding to each of
  its two lists when the list is full (`parse_eq_foldl`).
-/

import NetBoot.Boot.Config
import NetBoot.Proofs.Text.Blank

namespace NetBoot.Boot

namespace Config

open Text

variable {line before behind : List Char} {p : Property}

/-! ## What a line can be -/

/-- Names that are the same but for the case of ASCII letters. -/
def SameName (a b : String) : Prop := List.Forall₂ SameLetter a.toList b.toList

theorem sameName_iff {a b : String} : sameName a b = true ↔ SameName a b := sameLetters_iff

instance (a b : String) : Decidable (SameName a b) := decidable_of_iff _ sameName_iff

/-- What a property that is kept is like. -/
structure Property.Valid (p : Property) : Prop where
  name_trimmed : Trimmed p.name.toList
  name_ne : p.name.toList ≠ []
  name_le : utf8Len p.name.toList ≤ maxName
  name_plain : '=' ∉ p.name.toList
  not_comment : p.name.toList.head? ≠ some '#'
  value_trimmed : Trimmed p.value.toList
  value_ne : p.value.toList ≠ []
  value_le : utf8Len p.value.toList ≤ maxValue

/-- The line is the name, an `=` and the value, with any blanks around the two. -/
inductive Assigns : List Char → Property → Prop where
  | line {p : Property} {a b c d : List Char} (valid : p.Valid) (ha : Blank a) (hb : Blank b) (hc : Blank c)
      (hd : Blank d) : Assigns (a ++ p.name.toList ++ b ++ '=' :: (c ++ p.value.toList ++ d)) p

/-- Why a line assigns nothing. -/
inductive Idle : List Char → Prop where
  | blank {line : List Char} (h : Blank line) : Idle line
  | comment {front rest : List Char} (h : Blank front) : Idle (front ++ '#' :: rest)
  | noSeparator {line : List Char} (h : '=' ∉ line) : Idle line
  | nameless {name value : List Char} (h : Blank name) : Idle (name ++ '=' :: value)
  | valueless {name value : List Char} (hname : '=' ∉ name) (h : Blank value) : Idle (name ++ '=' :: value)
  | longName {name value : List Char} (hname : '=' ∉ name) (h : maxName < utf8Len (trim name)) :
      Idle (name ++ '=' :: value)
  | longValue {name value : List Char} (hname : '=' ∉ name) (h : maxValue < utf8Len (trim value)) :
      Idle (name ++ '=' :: value)

/-! ## What is read off a line -/

/-- Only the trimmed line is read. -/
theorem assignment?_congr {l l' : List Char} (h : trim l = trim l') : assignment? l = assignment? l' := by
  rw [assignment?, assignment?, parseLine, parseLine, h]

theorem assignment?_blank (h : Blank line) : assignment? line = none := by
  rw [assignment?, parseLine, trim_eq_nil_iff.2 h]
  rfl

theorem assignment?_comment (h : (trim line).head? = some '#') : assignment? line = none := by
  rw [assignment?, parseLine, h]
  simp

theorem splitAtEquals_append (h : '=' ∉ before) : splitAtEquals (before ++ '=' :: behind) = some (before, behind) := by
  have hbefore : ∀ c ∈ before, (c != '=') = true := fun c hc => bne_iff_ne.2 fun heq => h (heq ▸ hc)
  rw [splitAtEquals, List.dropWhile_append_of_pos hbefore, List.takeWhile_append_of_pos hbefore,
    List.dropWhile_cons_of_neg (by decide), List.takeWhile_cons_of_neg (by decide), List.append_nil]

theorem splitAtEquals_eq_none (h : '=' ∉ line) : splitAtEquals line = none := by
  have hline : ∀ c ∈ line, (c != '=') = true := fun c hc => bne_iff_ne.2 fun heq => h (heq ▸ hc)
  rw [splitAtEquals, ← List.append_nil line, List.dropWhile_append_of_pos hline]
  rfl

theorem assignment?_unseparated (h : '=' ∉ line) : assignment? line = none := by
  rw [assignment?, parseLine, splitAtEquals_eq_none fun hmem => h (mem_of_mem_trim hmem)]
  split
  · next hq =>
    split at hq <;> cases hq
  · rfl

theorem assignment?_eq_some (line : List Char) (p : Property) :
    assignment? line = some p ↔ ∃ name value, parseLine line = .ok (some (name, value)) ∧ name ≠ [] ∧ value ≠ [] ∧
      ⟨String.ofList name, String.ofList value⟩ = p := by
  unfold assignment?
  split
  · next name value hline =>
    simp only [hline, Except.ok.injEq, Option.some.injEq, Prod.mk.injEq]
    constructor
    · intro h
      split at h
      · cases h
      · next hempty =>
        simp only [Bool.or_eq_true, List.isEmpty_iff, not_or] at hempty
        exact ⟨name, value, ⟨rfl, rfl⟩, hempty.1, hempty.2, Option.some.inj h⟩
    · rintro ⟨_, _, ⟨rfl, rfl⟩, hname, hvalue, hp⟩
      rw [if_neg (by simp [hname, hvalue]), hp]
  · next hline =>
    refine ⟨fun h => (nomatch h), ?_⟩
    rintro ⟨name, value, h, -⟩
    exact absurd h (hline name value)

/-- A line is read as its part before the first `=` and its part behind it. -/
theorem parseLine_separated (h : '=' ∉ before) {name value : List Char} :
    parseLine (before ++ '=' :: behind) = .ok (some (name, value)) ↔
      (trim before).head? ≠ some '#' ∧ utf8Len (trim before) ≤ maxName ∧ utf8Len (trim behind) ≤ maxValue ∧
        trim before = name ∧ trim behind = value := by
  -- The separator is no blank, so trimming the line takes nothing from around it.
  have hline : trim (before ++ '=' :: behind) = dropBlank before ++ '=' :: dropEndBlank behind :=
    trim_append_cons (by decide) before behind
  have hplain : '=' ∉ dropBlank before := fun hmem => h (List.dropWhile_subset _ hmem)
  have hhead : (dropBlank before ++ '=' :: dropEndBlank behind).head? = some '#' ↔ (trim before).head? = some '#' := by
    rw [head?_trim]
    cases dropBlank before with
    | nil => simp
    | cons c cs => rfl
  rw [parseLine, hline, splitAtEquals_append hplain]
  dsimp only
  by_cases hcomment : (trim before).head? = some '#'
  · rw [if_pos (by rw [hhead.2 hcomment]; simp)]
    exact ⟨fun hq => (nomatch hq), fun hq => absurd hcomment hq.1⟩
  · rw [if_neg (by rw [Bool.or_eq_true, beq_iff_eq, hhead]; simp [hcomment]), demand_bind_eq_ok_iff]
    simp only [Option.some.injEq, exists_eq_left', need_bind_eq_ok_iff, trim_dropBlank, trim_dropEndBlank, pure,
      Except.pure, Except.ok.injEq, Prod.mk.injEq, ne_eq, hcomment, not_false_eq_true, true_and]

/-- The property made of a name and a value with blanks around them. -/
def Property.between (before behind : List Char) : Property :=
  ⟨String.ofList (trim before), String.ofList (trim behind)⟩

theorem Property.toList_name_between (before behind : List Char) :
    (between before behind).name.toList = trim before := String.toList_ofList

theorem Property.toList_value_between (before behind : List Char) :
    (between before behind).value.toList = trim behind := String.toList_ofList

theorem Property.valid_between_iff (h : '=' ∉ before) :
    (between before behind).Valid ↔ (trim before).head? ≠ some '#' ∧ trim before ≠ [] ∧
      utf8Len (trim before) ≤ maxName ∧ trim behind ≠ [] ∧ utf8Len (trim behind) ≤ maxValue := by
  rw [← toList_name_between before behind, ← toList_value_between before behind]
  refine ⟨fun valid => ⟨valid.not_comment, valid.name_ne, valid.name_le, valid.value_ne, valid.value_le⟩, ?_⟩
  rintro ⟨hcomment, hname, hnameLe, hvalue, hvalueLe⟩
  have hnameTrimmed := trimmed_trim before
  have hvalueTrimmed := trimmed_trim behind
  have hplain : '=' ∉ trim before := fun hmem => h (mem_of_mem_trim hmem)
  rw [← toList_name_between before behind] at hnameTrimmed hplain
  rw [← toList_value_between before behind] at hvalueTrimmed
  exact ⟨hnameTrimmed, hname, hnameLe, hplain, hcomment, hvalueTrimmed, hvalue, hvalueLe⟩

theorem assignment?_separated (h : '=' ∉ before) :
    assignment? (before ++ '=' :: behind) = some p ↔
      (Property.between before behind).Valid ∧ Property.between before behind = p := by
  rw [assignment?_eq_some, Property.valid_between_iff h]
  constructor
  · rintro ⟨name, value, hline, hname, hvalue, hp⟩
    obtain ⟨hcomment, hnameLe, hvalueLe, rfl, rfl⟩ := (parseLine_separated h).1 hline
    exact ⟨⟨hcomment, hname, hnameLe, hvalue, hvalueLe⟩, hp⟩
  · rintro ⟨⟨hcomment, hname, hnameLe, hvalue, hvalueLe⟩, hp⟩
    exact ⟨_, _, (parseLine_separated h).2 ⟨hcomment, hnameLe, hvalueLe, rfl, rfl⟩, hname, hvalue, hp⟩

theorem assignment?_eq_none_of_not_valid (h : '=' ∉ before) (hvalid : ¬ (Property.between before behind).Valid) :
    assignment? (before ++ '=' :: behind) = none :=
  Option.eq_none_iff_forall_ne_some.2 fun _ hp => hvalid ((assignment?_separated h).1 hp).1

/-- A line assigns the property that it is written for, and nothing else. -/
theorem assignment?_eq_some_iff : assignment? line = some p ↔ Assigns line p := by
  constructor
  · intro h
    have hsep : '=' ∈ line := by
      by_contra hsep
      rw [assignment?_unseparated hsep] at h
      cases h
    obtain ⟨before, behind, rfl, hplain⟩ := List.eq_append_cons_of_mem hsep
    obtain ⟨valid, rfl⟩ := (assignment?_separated hplain).1 h
    obtain ⟨-, a, b, ha, hb, hbefore⟩ := trim_eq_iff.1 (Eq.refl (trim before))
    obtain ⟨-, c, d, hc, hd, hbehind⟩ := trim_eq_iff.1 (Eq.refl (trim behind))
    have hassigns := Assigns.line valid ha hb hc hd
    rwa [Property.toList_name_between, Property.toList_value_between, ← hbefore, ← hbehind] at hassigns
  · rintro ⟨valid, ha, hb, hc, hd⟩
    rename_i a b c d
    have hplain : '=' ∉ a ++ p.name.toList ++ b := by
      simp only [List.mem_append, not_or]
      exact ⟨⟨ha.not_mem (by decide), valid.name_plain⟩, hb.not_mem (by decide)⟩
    have hbetween : Property.between (a ++ p.name.toList ++ b) (c ++ p.value.toList ++ d) = p := by
      rw [Property.between, trim_surround ha valid.name_trimmed hb, trim_surround hc valid.value_trimmed hd,
        String.ofList_toList, String.ofList_toList]
    exact (assignment?_separated hplain).2 ⟨hbetween.symm ▸ valid, hbetween⟩

/-- A line without an assignment has one of the reasons for it. -/
theorem idle_of_assignment? (h : assignment? line = none) : Idle line := by
  by_cases hsep : '=' ∈ line
  · obtain ⟨before, behind, rfl, hplain⟩ := List.eq_append_cons_of_mem hsep
    by_contra hidle
    -- Each way in which the property could be faulty is one of the reasons.
    have valid : (Property.between before behind).Valid := by
      refine (Property.valid_between_iff hplain).2 ⟨fun hhead => ?_, fun hnil => ?_, ?_, fun hnil => ?_, ?_⟩
      · obtain ⟨front, rest, hfront, rfl⟩ := (head?_trim_eq_some_iff (by decide)).1 hhead
        refine hidle ?_
        rw [List.append_assoc, List.cons_append]
        exact .comment hfront
      · exact hidle (.nameless (trim_eq_nil_iff.1 hnil))
      · exact Nat.le_of_not_lt fun hlong => hidle (.longName hplain hlong)
      · exact hidle (.valueless hplain (trim_eq_nil_iff.1 hnil))
      · exact Nat.le_of_not_lt fun hlong => hidle (.longValue hplain hlong)
    rw [(assignment?_separated hplain).2 ⟨valid, rfl⟩] at h
    cases h
  · exact .noSeparator hsep

theorem assignment?_eq_none_iff : assignment? line = none ↔ Idle line := by
  refine ⟨idle_of_assignment?, fun h => ?_⟩
  cases h with
  | blank h => exact assignment?_blank h
  | comment h => exact assignment?_comment ((head?_trim_eq_some_iff (by decide)).2 ⟨_, _, h, rfl⟩)
  | noSeparator h => exact assignment?_unseparated h
  | nameless h =>
    have hplain : '=' ∉ _ := h.not_mem (by decide)
    refine assignment?_eq_none_of_not_valid hplain fun valid => ?_
    exact ((Property.valid_between_iff hplain).1 valid).2.1 (trim_eq_nil_iff.2 h)
  | valueless hname h =>
    refine assignment?_eq_none_of_not_valid hname fun valid => ?_
    exact ((Property.valid_between_iff hname).1 valid).2.2.2.1 (trim_eq_nil_iff.2 h)
  | longName hname h =>
    refine assignment?_eq_none_of_not_valid hname fun valid => ?_
    exact Nat.not_le.2 h ((Property.valid_between_iff hname).1 valid).2.2.1
  | longValue hname h =>
    refine assignment?_eq_none_of_not_valid hname fun valid => ?_
    exact Nat.not_le.2 h ((Property.valid_between_iff hname).1 valid).2.2.2.2

/-! ## What the lines of a text assign -/

theorem assignments_eq (text : List Char) : assignments text = (text.splitOn '\n').filterMap assignment? :=
  filterMap_lines rfl (fun l => assignment?_congr (trim_dropReturn l)) text

theorem assignments_append (a b : List Char) : assignments (a ++ '\n' :: b) = assignments a ++ assignments b := by
  rw [assignments_eq, assignments_eq, assignments_eq, List.splitOn_append_cons_self, List.filterMap_append]

theorem assignments_line (h : '\n' ∉ line) : assignments line = (assignment? line).toList := by
  rw [assignments_eq, List.splitOn_eq_singleton h]
  cases hline : assignment? line with
  | none => rw [List.filterMap_cons_none hline]; rfl
  | some p => rw [List.filterMap_cons_some hline]; rfl

theorem Property.valid_of_mem {text : List Char} (h : p ∈ assignments text) : p.Valid := by
  rw [assignments, List.mem_filterMap] at h
  obtain ⟨line, -, hline⟩ := h
  obtain ⟨valid⟩ := assignment?_eq_some_iff.1 hline
  exact valid

end Config

namespace PropertyList

open Config

variable {line : List Char} {l : PropertyList} {p : Property}

/-! ## What is kept -/

/-- The list of these assignments. -/
def keep (ps : List Property) : PropertyList where
  properties := ps.take maxProperties
  servers := ((ps.filter isServer).map (·.value)).take maxServers

theorem parse_eq_keep (text : List Char) : parse text = keep (assignments text) := by
  rw [parse, keep, List.map_take]

/-- To cut off twice is to cut off once. -/
theorem take_append_take {α : Type} (n : Nat) (xs ys : List α) :
    (xs.take n ++ ys.take n).take n = (xs ++ ys).take n := by
  have hroom : min (n - min n xs.length) n = n - xs.length := by omega
  rw [List.take_append, List.take_append, List.take_take, List.take_take, List.length_take, Nat.min_self, hroom]

theorem keep_append (ps qs : List Property) :
    keep (ps ++ qs) = ⟨((keep ps).properties ++ (keep qs).properties).take maxProperties,
      ((keep ps).servers ++ (keep qs).servers).take maxServers⟩ := by
  simp only [keep, take_append_take, List.filter_append, List.map_append]

theorem parse_append (a b : List Char) :
    parse (a ++ '\n' :: b) = ⟨((parse a).properties ++ (parse b).properties).take maxProperties,
      ((parse a).servers ++ (parse b).servers).take maxServers⟩ := by
  rw [parse_eq_keep, parse_eq_keep, parse_eq_keep, assignments_append, keep_append]

/-! ### Line after line -/

/-- The list with one more assignment, in each of its two parts that is not full. -/
def add (l : PropertyList) (p : Property) : PropertyList where
  properties := if l.properties.length < maxProperties then l.properties ++ [p] else l.properties
  servers := if isServer p ∧ l.servers.length < maxServers then l.servers ++ [p.value] else l.servers

def readLine (l : PropertyList) (line : List Char) : PropertyList :=
  match assignment? line with
  | some p => l.add p
  | none => l

theorem take_concat {α : Type} (n : Nat) (xs : List α) (x : α) :
    (xs ++ [x]).take n = if (xs.take n).length < n then xs.take n ++ [x] else xs.take n := by
  rw [List.length_take, List.take_append]
  split
  · next h =>
    have hone : [x].take (n - xs.length) = [x] := List.take_of_length_le (by rw [List.length_singleton]; omega)
    rw [hone]
  · next h => rw [Nat.sub_eq_zero_of_le (by omega), List.take_zero, List.append_nil]

theorem keep_concat (ps : List Property) (p : Property) : keep (ps ++ [p]) = (keep ps).add p := by
  cases hserver : isServer p <;> simp [keep, add, take_concat, hserver]

/-- The list of what has been read so far is all that the loop carries. -/
theorem foldl_add (ps qs : List Property) : qs.foldl add (keep ps) = keep (ps ++ qs) := by
  induction qs generalizing ps with
  | nil => rw [List.append_nil, List.foldl_nil]
  | cons q qs ih => rw [List.foldl_cons, ← keep_concat, ih, List.append_assoc, List.singleton_append]

/-- Reading the lines one after the other, and keeping what there is room for, gives the list. -/
theorem parse_eq_foldl (text : List Char) : parse text = (Text.lines text).foldl readLine {} := by
  rw [parse_eq_keep, assignments, ← List.nil_append (List.filterMap _ _), ← foldl_add, List.foldl_filterMap]
  congr 1
  funext l line
  rw [readLine]
  cases assignment? line <;> rfl

/-! ### What decides a setting -/

/-- The first of the properties with this name, up to case, has this value. -/
def Decides (l : PropertyList) (name value : String) : Prop :=
  ∃ before p behind, l.properties = before ++ p :: behind ∧ (∀ q ∈ before, ¬ SameName q.name name) ∧
    SameName p.name name ∧ p.value = value

theorem get?_eq_some_iff {name value : String} : l.get? name = some value ↔ l.Decides name value := by
  rw [get?, Option.map_eq_some_iff]
  simp only [List.find?_eq_some_iff_append, sameName_iff, Bool.not_eq_true']
  constructor
  · rintro ⟨p, ⟨hname, before, behind, heq, hbefore⟩, hvalue⟩
    refine ⟨before, p, behind, heq, fun q hq hsame => ?_, hname, hvalue⟩
    have hfalse := hbefore q hq
    rw [sameName_iff.2 hsame] at hfalse
    cases hfalse
  · rintro ⟨before, p, behind, heq, hbefore, hname, hvalue⟩
    exact ⟨p, ⟨hname, before, behind, heq, fun q hq => Bool.eq_false_iff.2 fun h => hbefore q hq (sameName_iff.1 h)⟩,
      hvalue⟩

theorem isEnabled_iff {name : String} : l.isEnabled name = true ↔ l.Decides name "1" := by
  rw [isEnabled, beq_iff_eq, get?_eq_some_iff]

/-! ### A single line -/

theorem parse_eq_empty_iff (h : '\n' ∉ line) : parse line = {} ↔ Idle line := by
  rw [parse_eq_keep, assignments_line h, ← assignment?_eq_none_iff]
  cases assignment? line with
  | none => exact iff_of_true rfl rfl
  | some p => exact iff_of_false (fun hq => (nomatch congrArg (List.length ∘ properties) hq)) (Option.some_ne_none p)

theorem keep_singleton (p : Property) : keep [p] = ⟨[p], if SameName p.name "server" then [p.value] else []⟩ := by
  have hserver : isServer p = true ↔ SameName p.name "server" := sameName_iff
  rw [← List.nil_append [p], keep_concat, add]
  simp only [hserver]
  by_cases h : SameName p.name "server" <;> simp [h, keep, maxProperties, maxServers]

theorem parse_eq_singleton_iff (h : '\n' ∉ line) :
    parse line = ⟨[p], if SameName p.name "server" then [p.value] else []⟩ ↔ Assigns line p := by
  rw [parse_eq_keep, assignments_line h, ← assignment?_eq_some_iff, ← keep_singleton]
  cases assignment? line with
  | none => exact iff_of_false (fun hq => (nomatch congrArg (List.length ∘ properties) hq)) (Option.some_ne_none p).symm
  | some q =>
    refine ⟨fun hq => ?_, fun hq => by rw [Option.some.inj hq, Option.toList_some]⟩
    have hfirst := congrArg (List.head? ∘ properties) hq
    exact hfirst

/-- An idle line leaves no trace, wherever it stands. -/
theorem parse_skips (hidle : Idle line) (h : '\n' ∉ line) (a b : List Char) :
    parse (line ++ '\n' :: b) = parse b ∧ parse (a ++ '\n' :: line) = parse a ∧
      parse (a ++ '\n' :: (line ++ '\n' :: b)) = parse (a ++ '\n' :: b) := by
  have hline : assignments line = [] := by
    rw [assignments_line h, assignment?_eq_none_iff.2 hidle, Option.toList_none]
  refine ⟨?_, ?_, ?_⟩ <;>
    simp only [parse_eq_keep, assignments_append, hline, List.nil_append, List.append_nil]

/-- The lines of a file are independent. Cut at any line feed, a file gives the properties and the servers of its two
    parts one after the other, up to the room in each of the two lists; a line by itself gives one property or, for one
    of the reasons of `Idle`, nothing, and then it changes nothing wherever it stands. What is kept is well formed, the
    first property of a name decides what is looked up, and a switch is on when that is exactly `1`. -/
theorem lines_independent :
    (∀ a b : List Char,
      (parse (a ++ '\n' :: b)).properties = ((parse a).properties ++ (parse b).properties).take 32 ∧
      (parse (a ++ '\n' :: b)).servers = ((parse a).servers ++ (parse b).servers).take 8) ∧
    (∀ line : List Char, '\n' ∉ line → (Idle line ∨ ∃ p, Assigns line p) ∧
      (parse line = {} ↔ Idle line) ∧
      ∀ p, parse line = ⟨[p], if SameName p.name "server" then [p.value] else []⟩ ↔ Assigns line p) ∧
    (∀ line : List Char, '\n' ∉ line → Idle line → ∀ a b,
      parse (line ++ '\n' :: b) = parse b ∧ parse (a ++ '\n' :: line) = parse a ∧
      parse (a ++ '\n' :: (line ++ '\n' :: b)) = parse (a ++ '\n' :: b)) ∧
    (∀ text, ∀ p ∈ (parse text).properties, p.Valid) ∧
    (∀ text name value, (parse text).get? name = some value ↔ (parse text).Decides name value) ∧
    ∀ text,
      ((Settings.ofProperties (parse text)).bootFromMenuServer = true ↔
        (parse text).Decides "bootfrommenuserver" "1") ∧
      ((Settings.ofProperties (parse text)).dontSetPathPrefix = true ↔
        (parse text).Decides "dontsetpathprefix" "1") ∧
      ((Settings.ofProperties (parse text)).alwaysSecureBootChain = true ↔
        (parse text).Decides "alwayssecbootchain" "1") := by
  refine ⟨fun a b => ?_, fun line h => ⟨?_, parse_eq_empty_iff h, fun p => parse_eq_singleton_iff h⟩,
    fun line h hidle => parse_skips hidle h, fun text p hp => ?_, fun text name value => get?_eq_some_iff,
    fun text => ⟨isEnabled_iff, isEnabled_iff, isEnabled_iff⟩⟩
  · rw [parse_append]
    exact ⟨rfl, rfl⟩
  · cases hline : assignment? line with
    | none => exact .inl (idle_of_assignment? hline)
    | some p => exact .inr ⟨p, assignment?_eq_some_iff.1 hline⟩
  · rw [parse_eq_keep] at hp
    exact Property.valid_of_mem (List.mem_of_mem_take hp)

/-- A comment that looks like a setting, with the end of line of another system. -/
theorem comment_between_settings :
    '\n' ∉ "  #debug=0\r".toList ∧ Idle "  #debug=0\r".toList ∧
      parse ("debug=1".toList ++ '\n' :: ("  #debug=0\r".toList ++ '\n' :: "Server = x\t".toList)) =
        parse ("debug=1".toList ++ '\n' :: "Server = x\t".toList) ∧
      parse ("debug=1".toList ++ '\n' :: "Server = x\t".toList) = ⟨[⟨"debug", "1"⟩, ⟨"Server", "x"⟩], ["x"]⟩ := by
  have hline : '\n' ∉ "  #debug=0\r".toList := by decide
  have hidle : Idle "  #debug=0\r".toList := (parse_eq_empty_iff hline).1 (by decide +kernel)
  exact ⟨hline, hidle, (lines_independent.2.2.1 _ hline hidle _ _).2.2, by decide +kernel⟩

end PropertyList

end NetBoot.Boot
