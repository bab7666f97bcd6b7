/-
  NetBoot.Proofs.Net.DottedQuad — dotted quads as a language, and that the parser accepts it.

  The language is stated by what its words look like: four runs of decimal digits, each the digits of an
  octet behind any number of zeros, and one dot between each run and the next (`Run`, `DottedQuad`). The
  parser cuts a string at its dots and reads the pieces; it accepts these words and no others
  (`parse?_eq_some_iff`), the text of every address among them (`dottedQuad_text`).

  So the form of a server's name decides what is done with it: a dotted quad is the address that it spells,
  and any other name is looked up.
-/

import Mathlib.Data.List.Induction
import Mathlib.Data.Nat.Digits.Defs
import Mathlib.Data.Set.List
import NetBoot.Proofs.Boot.Selection

namespace NetBoot.Net.Ipv4

/-! ## The language -/

/-- One decimal digit or more, the most significant one first, that spell an octet. -/
def Run (octet : UInt8) (cs : List Char) : Prop :=
  ∃ ds : List (Fin 10), ds ≠ [] ∧ cs = ds.map (fun d => d.val.digitChar) ∧
    Nat.ofDigits 10 (ds.reverse.map Fin.val) = octet.toNat

/-- Four runs, and a dot between each and the next. -/
inductive DottedQuad : Ipv4 → List Char → Prop
  | mk {ip : Ipv4} {p q r t : List Char} : Run ip.a p → Run ip.b q → Run ip.c r → Run ip.d t →
    DottedQuad ip (p ++ '.' :: q ++ '.' :: r ++ '.' :: t)

/-! ## Runs -/

theorem isDigit_iff {c : Char} : c.isDigit = true ↔ ∃ d : Fin 10, d.val.digitChar = c := by
  have hdigit : c.isDigit = true ↔ '0'.toNat ≤ c.toNat ∧ c.toNat ≤ '9'.toNat := by
    simp [Char.isDigit, UInt32.le_iff_toNat_le]
  constructor
  · intro h
    obtain ⟨h0, h9⟩ := hdigit.mp h
    have hzero : '0'.toNat = 48 := rfl
    have hnine : '9'.toNat = 57 := rfl
    have hlt : c.toNat - 48 < 10 := by omega
    refine ⟨⟨c.toNat - 48, hlt⟩, Char.toNat_inj.mp ?_⟩
    rw [Nat.toNat_digitChar_of_lt_ten hlt]
    omega
  · rintro ⟨d, rfl⟩
    rw [Nat.isDigit_digitChar]
    exact decide_eq_true d.isLt

theorem all_isDigit_iff {cs : List Char} :
    cs.all Char.isDigit = true ↔ ∃ ds : List (Fin 10), ds.map (fun d => d.val.digitChar) = cs := by
  have hrange := Set.ext_iff.mp (Set.range_list_map fun d : Fin 10 => d.val.digitChar) cs
  rw [List.all_eq_true]
  simp only [isDigit_iff]
  exact hrange.symm

theorem decimal_append (cs : List Char) (c : Char) : decimal (cs ++ [c]) = 10 * decimal cs + (c.toNat - '0'.toNat) := by
  simp only [decimal, List.foldl_append, List.foldl_cons, List.foldl_nil]

/-- The value that is added up is that of the digits by their places. -/
theorem decimal_digits (ds : List (Fin 10)) :
    decimal (ds.map fun d => d.val.digitChar) = Nat.ofDigits 10 (ds.reverse.map Fin.val) := by
  induction ds using List.reverseRecOn with
  | nil => rfl
  | append_singleton ds d ih =>
    have hd : d.val.digitChar.toNat - '0'.toNat = d.val := Nat.toNat_digitChar_sub_48_of_lt_ten d.isLt
    rw [List.map_append, List.map_singleton, decimal_append, ih, hd, List.reverse_append, List.reverse_singleton,
      List.singleton_append, List.map_cons, Nat.ofDigits_cons]
    exact Nat.add_comm _ _

theorem octet?_eq_some_iff {cs : List Char} {octet : UInt8} : octet? cs = some octet ↔ Run octet cs := by
  have hlt := octet.toNat_lt
  unfold octet?
  constructor
  · intro h
    split at h
    · next hcs =>
      obtain ⟨hne, hall, hle⟩ := hcs
      obtain ⟨ds, rfl⟩ := all_isDigit_iff.mp hall
      cases h
      refine ⟨ds, fun h => hne (by rw [h]; rfl), rfl, ?_⟩
      rw [← decimal_digits, UInt8.toNat_ofNat_of_lt' (by rw [UInt8.size]; omega)]
    · cases h
  · rintro ⟨ds, hne, rfl, hvalue⟩
    rw [← decimal_digits] at hvalue
    rw [if_pos ⟨fun h => hne (List.map_eq_nil_iff.mp h), all_isDigit_iff.mpr ⟨ds, rfl⟩, by omega⟩, hvalue,
      UInt8.ofNat_toNat]

theorem Run.not_mem {octet : UInt8} {cs : List Char} (h : Run octet cs) : '.' ∉ cs := by
  obtain ⟨ds, -, rfl, -⟩ := h
  intro hdot
  obtain ⟨d, -, hd⟩ := List.mem_map.mp hdot
  exact absurd (isDigit_iff.mpr ⟨d, hd⟩) (by decide)

theorem run_toDigits (octet : UInt8) : Run octet (Nat.toDigits 10 octet.toNat) := by
  have hlt := octet.toNat_lt
  have hvalue : decimal (Nat.toDigits 10 octet.toNat) = octet.toNat := Nat.ofDigitChars_ten_toDigits
  have hdigits : (Nat.toDigits 10 octet.toNat).all Char.isDigit = true :=
    List.all_eq_true.mpr fun c => Nat.isDigit_of_mem_toDigits (by decide) (by decide)
  rw [← octet?_eq_some_iff, octet?, if_pos ⟨Nat.toDigits_ne_nil, hdigits, by omega⟩, hvalue, UInt8.ofNat_toNat]

/-! ## Words -/

theorem splitOn_runs {p q r t : List Char} (hp : '.' ∉ p) (hq : '.' ∉ q) (hr : '.' ∉ r) (ht : '.' ∉ t) :
    (p ++ '.' :: q ++ '.' :: r ++ '.' :: t).splitOn '.' = [p, q, r, t] := by
  have hdots : ∀ l ∈ [p, q, r, t], '.' ∉ l := by simp [hp, hq, hr, ht]
  rw [← List.splitOn_intercalate '.' hdots (List.cons_ne_nil _ _)]
  simp [List.intercalate]

/-- A string is read as an address exactly if it is a dotted quad that spells it. -/
theorem parse?_eq_some_iff {s : String} {ip : Ipv4} : parse? s = some ip ↔ DottedQuad ip s.toList := by
  unfold parse?
  constructor
  · intro h
    split at h
    · next p q r t hsplit =>
      simp only [Option.bind_eq_bind, Option.bind_eq_some_iff, Option.pure_def, Option.some.injEq] at h
      obtain ⟨a, ha, b, hb, c, hc, d, hd, rfl⟩ := h
      have hs : s.toList = p ++ '.' :: q ++ '.' :: r ++ '.' :: t := by
        have hjoin : ['.'].intercalate (s.toList.splitOn '.') = s.toList := List.intercalate_splitOn '.'
        rw [← hjoin, hsplit]
        simp [List.intercalate]
      rw [hs]
      exact .mk (octet?_eq_some_iff.mp ha) (octet?_eq_some_iff.mp hb) (octet?_eq_some_iff.mp hc)
        (octet?_eq_some_iff.mp hd)
    · cases h
  · intro h
    generalize s.toList = cs at h
    obtain ⟨ha, hb, hc, hd⟩ := h
    rw [splitOn_runs ha.not_mem hb.not_mem hc.not_mem hd.not_mem]
    dsimp only
    rw [octet?_eq_some_iff.mpr ha, octet?_eq_some_iff.mpr hb, octet?_eq_some_iff.mpr hc, octet?_eq_some_iff.mpr hd]
    rfl

example : parse? "010.0.00.1" = some ⟨10, 0, 0, 1⟩ ∧ parse? "10.0.0.256" = none ∧ parse? "10..0.1" = none := by
  decide +kernel

/-- The text of an address is a dotted quad. -/
theorem dottedQuad_text (ip : Ipv4) : DottedQuad ip ip.text.toList := by
  have htext : ip.text.toList = Nat.toDigits 10 ip.a.toNat ++ '.' :: Nat.toDigits 10 ip.b.toNat ++
      '.' :: Nat.toDigits 10 ip.c.toNat ++ '.' :: Nat.toDigits 10 ip.d.toNat := by
    simp [text, toString, Nat.repr_eq_ofList_toDigits]
  rw [htext]
  exact .mk (run_toDigits ip.a) (run_toDigits ip.b) (run_toDigits ip.c) (run_toDigits ip.d)

/-! ## Names of servers -/

/-- A string is an address exactly if it is four runs of digits between dots, each of value at most 255;
    so the text of an address is read as that address, and the name of a server is looked up, with the
    answer that the name server gives, unless it has this form. -/
theorem dotted_quads_are_addresses {n : Nat} {debug : Bool} :
    (∀ (s : String) (ip : Ipv4), parse? s = some ip ↔ DottedQuad ip s.toList) ∧
    (∀ ip : Ipv4, parse? ip.text = some ip) ∧
    ∀ (dhcpServer : Ipv4) (name : String) (w : Sim.World),
      name = "" ∨
      (∃ ip, DottedQuad ip name.toList ∧
        Boot.resolve ⟨Sim.machine n, debug⟩ dhcpServer name w = .ok (.ok ip) w) ∨
      (∀ ip, ¬ DottedQuad ip name.toList) ∧
        ∃ w', Boot.resolve ⟨Sim.machine n, debug⟩ dhcpServer name w =
            .ok (demand (w.lookedUp name 10).toOption .dnsFailure) w' ∧
          ∃ repeats ≤ 10, Sim.Noted (Sim.lookups name (w.lookedUp name 10) repeats) w w' := by
  refine ⟨fun s ip => parse?_eq_some_iff, fun ip => parse?_eq_some_iff.mpr (dottedQuad_text ip), ?_⟩
  intro dhcpServer name w
  cases hempty : name.isEmpty with
  | true => exact .inl (String.isEmpty_iff.mp hempty)
  | false =>
    refine .inr ?_
    cases hparse : parse? name with
    | some ip =>
      refine .inl ⟨ip, parse?_eq_some_iff.mp hparse, ?_⟩
      rw [Boot.resolve, hempty, hparse]
      rfl
    | none =>
      refine .inr ⟨fun ip hquad => ?_, ?_⟩
      · rw [parse?_eq_some_iff.mpr hquad] at hparse
        cases hparse
      · obtain ⟨w', hr, -, hn⟩ := Boot.resolve_lookUp_run (n := n) (d := debug) dhcpServer w hempty hparse
        exact ⟨w', hr, hn⟩

end NetBoot.Net.Ipv4
