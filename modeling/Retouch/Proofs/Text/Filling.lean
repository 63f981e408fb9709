import Mathlib.Data.List.Find
import Retouch.Text.Replace

/-!
# Filling all places of a text at once

A place of a text is a name in it that stands for something else. `fillAtOnce` puts something into all
the places in one pass, and what it puts in is not searched. `replaceAll` does so for a single place
(`replaceAll_eq`).

A text is `Laid` out for some names if each stands in it as a word of its own. What is put into the
places of such a text makes no new places in the text itself, whatever it is, so that filling more places
afterwards only fills what was put in: `fillAtOnce_fillAtOnce`.
-/

namespace Retouch.Text

/-- A text with its places filled, the first `covered` characters left out. -/
def fillFrom (places : List (Text × Text)) : (covered : Nat) → Text → Text
  | _, [] => []
  | covered + 1, _ :: rest => fillFrom places covered rest
  | 0, c :: rest =>
    match places.find? fun place => place.1.isPrefixOf (c :: rest) with
    | some place => place.2 ++ fillFrom places (place.1.length - 1) rest
    | none => c :: fillFrom places 0 rest

/-- A text in which each of some names is replaced by what is put into its place, all at once. -/
def fillAtOnce (places : List (Text × Text)) (t : Text) : Text := fillFrom places 0 t

/-- To replace a name is to fill its place. -/
theorem replaceAll_eq (name value t : Text) :
    replaceAll name value t = fillAtOnce [(name, value)] t := by
  have hfrom : ∀ covered, replaceFrom name value covered t = fillFrom [(name, value)] covered t := by
    induction t with
    | nil => intro covered; cases covered <;> rfl
    | cons c rest ih =>
      intro covered
      cases covered with
      | succ covered => exact ih covered
      | zero =>
        rw [replaceFrom, fillFrom, List.find?_singleton]
        by_cases hname : name.isPrefixOf (c :: rest) = true
        · rw [if_pos hname, if_pos hname, ih]
        · rw [if_neg hname, if_neg hname, ih]
  exact hfrom 0

/-! ## Texts without places -/

/-- Nothing is left of a text that is left out. -/
theorem fillFrom_length (places : List (Text × Text)) (t : Text) : fillFrom places t.length t = [] := by
  induction t with
  | nil => rfl
  | cons c rest ih => exact ih

/-- A text in which no name occurs stays as it is. -/
theorem fillAtOnce_eq_self {places : List (Text × Text)} {t : Text}
    (h : ∀ place ∈ places, ¬ place.1 <:+: t) : fillAtOnce places t = t := by
  induction t with
  | nil => rfl
  | cons c rest ih =>
    have hfind : (places.find? fun place => place.1.isPrefixOf (c :: rest)) = none := by
      refine List.find?_eq_none.2 fun place hplace hbegins => h place hplace ?_
      exact (List.isPrefixOf_iff_prefix.1 hbegins).isInfix
    have hrest : fillFrom places 0 rest = rest :=
      ih fun place hplace hrest => h place hplace (hrest.trans (List.suffix_cons c rest).isInfix)
    rw [fillAtOnce, fillFrom, hfind, hrest]

/-! ## Words -/

/-- Whether no name occurs in a word that is not the name itself. -/
def IsWord (names : List Text) (word : Text) : Prop :=
  ∀ name ∈ names, name = word ∨ ¬ name <:+: word

instance (names : List Text) (word : Text) : Decidable (IsWord names word) :=
  inferInstanceAs (Decidable (∀ name ∈ names, name = word ∨ ¬ name <:+: word))

/-- A text that is made of words, with a character between two of them that is in none of the names. -/
inductive Laid (names : List Text) : Text → Prop
  | word {word : Text} (h : IsWord names word) : Laid names word
  | cons {word rest : Text} {c : Char} (h : IsWord names word) (hc : ∀ name ∈ names, c ∉ name)
      (hrest : Laid names rest) : Laid names (word ++ c :: rest)

/-- Laid out texts can be put behind each other, with such a character between them. -/
theorem Laid.append_cons {names : List Text} {first rest : Text} {c : Char} (hfirst : Laid names first)
    (hc : ∀ name ∈ names, c ∉ name) (hrest : Laid names rest) : Laid names (first ++ c :: rest) := by
  induction hfirst with
  | word h => exact .cons h hc hrest
  | cons h hd _ ih =>
    rw [List.append_assoc]
    exact .cons h hd ih

/-- Whether a text is laid out, with the part of its first word that has been read already. -/
def isLaidFrom (names : List Text) (word : Text) : Text → Bool
  | [] => decide (IsWord names word)
  | c :: rest =>
    if names.all fun name => !name.contains c then
      decide (IsWord names word) && isLaidFrom names [] rest
    else isLaidFrom names (word ++ [c]) rest

/-- Laid out texts are recognised. -/
theorem laid_of_isLaidFrom {names : List Text} (word : Text) {t : Text}
    (h : isLaidFrom names word t = true) : Laid names (word ++ t) := by
  induction t generalizing word with
  | nil =>
    rw [List.append_nil]
    exact .word (of_decide_eq_true h)
  | cons c rest ih =>
    by_cases hc : (names.all fun name => !name.contains c) = true
    · rw [isLaidFrom, if_pos hc, Bool.and_eq_true] at h
      exact .cons (of_decide_eq_true h.1) (by simpa using hc) (ih [] h.2)
    · rw [isLaidFrom, if_neg hc] at h
      rw [List.append_cons]
      exact ih (word ++ [c]) h

/-! ## Filling word by word -/

section Words

variable {names : List Text} {places later : List (Text × Text)} {word t : Text} {c : Char}

/-- What stands behind a character that a name does not have is not part of the name. -/
theorem isPrefixOf_append_cons {name : Text} (hc : c ∉ name) (first rest : Text) :
    name.isPrefixOf (first ++ c :: rest) = name.isPrefixOf first := by
  induction name generalizing first with
  | nil => rfl
  | cons d name ih =>
    have hd : d ≠ c := fun h => hc (h ▸ List.mem_cons_self)
    have hname : c ∉ name := fun h => hc (List.mem_cons_of_mem d h)
    cases first with
    | nil => simp [List.isPrefixOf, hd]
    | cons e first => simp [List.isPrefixOf, ih hname]

theorem fillFrom_append_cons (hnil : ∀ place ∈ places, place.1 ≠ [])
    (hc : ∀ place ∈ places, c ∉ place.1) {covered : Nat} {first : Text}
    (hcovered : covered ≤ first.length) (rest : Text) :
    fillFrom places covered (first ++ c :: rest)
      = fillFrom places covered first ++ c :: fillAtOnce places rest := by
  have hfind : ∀ t : Text, (places.find? fun place => place.1.isPrefixOf (t ++ c :: rest))
      = places.find? fun place => place.1.isPrefixOf t :=
    fun t => List.find?_congr fun place hplace => isPrefixOf_append_cons (hc place hplace) t rest
  induction first generalizing covered with
  | nil =>
    have hnone : (places.find? fun place => place.1.isPrefixOf []) = none := by
      refine List.find?_eq_none.2 fun place hplace hbegins => hnil place hplace ?_
      exact List.prefix_nil.1 (List.isPrefixOf_iff_prefix.1 hbegins)
    obtain rfl : covered = 0 := Nat.le_zero.1 hcovered
    have hstop : (places.find? fun place => place.1.isPrefixOf (c :: rest)) = none :=
      (hfind []).trans hnone
    rw [List.nil_append, fillFrom, fillFrom, hstop]
    rfl
  | cons d first ih =>
    cases covered with
    | succ covered => exact ih (Nat.le_of_succ_le_succ hcovered)
    | zero =>
      rw [List.cons_append, fillFrom, fillFrom, ← List.cons_append, hfind]
      cases hplace : places.find? fun place => place.1.isPrefixOf (d :: first) with
      | none => exact congrArg (d :: ·) (ih (Nat.zero_le _))
      | some place =>
        have hmatch : place.1.isPrefixOf (d :: first) = true :=
          List.find?_some (p := fun place : Text × Text => place.1.isPrefixOf (d :: first)) hplace
        have hbegins : place.1 <+: d :: first := List.isPrefixOf_iff_prefix.1 hmatch
        have hle : place.1.length - 1 ≤ first.length := Nat.sub_le_of_le_add hbegins.length_le
        simp only [ih hle, List.append_assoc]

/-- A text is filled piece by piece if a character that no name has stands between the pieces. -/
theorem fillAtOnce_append_cons (hnil : ∀ name ∈ names, name ≠ []) (hc : ∀ name ∈ names, c ∉ name)
    (hplaces : ∀ place ∈ places, place.1 ∈ names) (first rest : Text) :
    fillAtOnce places (first ++ c :: rest) = fillAtOnce places first ++ c :: fillAtOnce places rest :=
  fillFrom_append_cons (fun place hplace => hnil place.1 (hplaces place hplace))
    (fun place hplace => hc place.1 (hplaces place hplace)) (Nat.zero_le _) rest

/-- A word is filled if it is a name, and stays as it is if it is none. -/
theorem fillAtOnce_word (hnil : ∀ name ∈ names, name ≠ []) (hplaces : ∀ place ∈ places, place.1 ∈ names)
    (hword : IsWord names word) : fillAtOnce places word = (places.lookup word).getD word := by
  cases hlookup : places.lookup word with
  | none =>
    have hne : ∀ place ∈ places, word ≠ place.1 := by simpa using hlookup
    refine fillAtOnce_eq_self fun place hplace => ?_
    exact (hword place.1 (hplaces place hplace)).resolve_left (hne place hplace).symm
  | some value =>
    obtain ⟨before, after, rfl, hbefore⟩ := List.lookup_eq_some_iff.1 hlookup
    have hnone : (before.find? fun place => place.1.isPrefixOf word) = none := by
      refine List.find?_eq_none.2 fun place hplace hbegins => ?_
      have hne : word ≠ place.1 := by simpa using hbefore place hplace
      have hname := hword place.1 (hplaces place (List.mem_append_left _ hplace))
      exact hname.elim (fun h => hne h.symm)
        fun h => h (List.isPrefixOf_iff_prefix.1 hbegins).isInfix
    have hmem : word ∈ names := hplaces (word, value) (List.mem_append_right _ List.mem_cons_self)
    have hself : word.isPrefixOf word = true := List.isPrefixOf_iff_prefix.2 (List.prefix_refl word)
    have hfind : ((before ++ (word, value) :: after).find? fun place => place.1.isPrefixOf word)
        = some (word, value) := by
      rw [List.find?_append, hnone, Option.none_or]
      exact List.find?_cons_of_pos hself
    cases word with
    | nil => exact absurd rfl (hnil [] hmem)
    | cons c rest =>
      rw [fillAtOnce, fillFrom, hfind]
      show value ++ fillFrom _ rest.length rest = value
      rw [fillFrom_length, List.append_nil]

/-! ## More places -/

/-- Places with more places filled in what is put into them, and those places behind them. -/
def andThen (places later : List (Text × Text)) : List (Text × Text) :=
  (places.map fun place => (place.1, fillAtOnce later place.2)) ++ later

theorem names_andThen (hplaces : ∀ place ∈ places, place.1 ∈ names)
    (hlater : ∀ place ∈ later, place.1 ∈ names) : ∀ place ∈ andThen places later, place.1 ∈ names := by
  intro place hplace
  rcases List.mem_append.1 hplace with hplace | hplace
  · obtain ⟨origin, horigin, rfl⟩ := List.mem_map.1 hplace
    exact hplaces origin horigin
  · exact hlater place hplace

/-- The first places are looked up first. -/
theorem lookup_andThen (places later : List (Text × Text)) (word : Text) :
    (andThen places later).lookup word
      = ((places.lookup word).map (fillAtOnce later)).or (later.lookup word) := by
  rw [andThen, List.lookup_append]
  congr 1
  induction places with
  | nil => rfl
  | cons place places ih =>
    rw [List.map_cons, List.lookup_cons, List.lookup_cons, ih]
    cases word == place.1 <;> rfl

/-- **To fill more places of a laid out text** is to fill them in the text itself and in what was put
into the others, whatever that is. -/
theorem fillAtOnce_fillAtOnce (hnil : ∀ name ∈ names, name ≠ [])
    (hplaces : ∀ place ∈ places, place.1 ∈ names) (hlater : ∀ place ∈ later, place.1 ∈ names)
    (h : Laid names t) :
    fillAtOnce later (fillAtOnce places t) = fillAtOnce (andThen places later) t := by
  have hboth := names_andThen hplaces hlater
  have hwords : ∀ word, IsWord names word →
      fillAtOnce later (fillAtOnce places word) = fillAtOnce (andThen places later) word := by
    intro word hword
    rw [fillAtOnce_word hnil hboth hword, lookup_andThen, fillAtOnce_word hnil hplaces hword]
    cases places.lookup word with
    | none => exact fillAtOnce_word hnil hlater hword
    | some value => rfl
  induction h with
  | word hword => exact hwords _ hword
  | cons hword hc _ ih =>
    rw [fillAtOnce_append_cons hnil hc hplaces, fillAtOnce_append_cons hnil hc hlater,
      fillAtOnce_append_cons hnil hc hboth, hwords _ hword, ih]

end Words

end Retouch.Text
