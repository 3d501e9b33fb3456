import WebOfThings.Json.Printer
import WebOfThings.Json.Reader
import WebOfThings.Proofs.Json.Normal
import WebOfThings.Proofs.Json.Numeral

/-!
# Values that are read from their text

The text of a value is scanned as its tokens, and the tokens bring the reading machine to the end of that
value: the two statements are proved one after the other, and both are inductions over the value (`scans`,
`runs`).

The first one is about characters. A string is scanned part by part (`exists_parts_escape`), where an escape
by a letter and one by a code point stand for the same character; a numeral ends where the text goes on with
something that does not continue it; between two items there is a comma and nothing else. Whatever follows
the value is left as it is, so the statement can be used in the middle of a text.

The second one is about the stack. Whatever is open around a value stays open, and its frame is where the
value goes when it is complete (`Runs`). The depth of the value decides whether there is room for it.

A double is the only exception, since a numeral is read by scaling (`DoubleReadsBack`); integers need no
condition. `ofText?_text` puts this together for the whole text, and `tokens?_render` says which tokens it
has.
-/

namespace WebOfThings.Json

/-! ## Strings -/

namespace Token

theorem char_eq_of_toNat {c d : Char} (h : c.toNat = d.toNat) : c = d :=
  Char.ext (UInt32.toNat_inj.1 h)

section

variable {c : Char} {tail rest : List Char} {parts : List StringPart}

/-- An escape by a letter stands for its character. -/
theorem exists_part_of_letter (h : scanParts? tail = some (parts, rest)) {letter : Char} (hu : letter ≠ 'u')
    (hletter : ofEscape? letter = some c) :
    ∃ part, scanParts? (['\\', letter] ++ tail) = some (part :: parts, rest) ∧
      join? none (part :: parts) = (join? none parts).map (c :: ·) := by
  refine ⟨.char c, ?_, rfl⟩
  show scanParts? ('\\' :: letter :: tail) = _
  rw [scanParts?]
  · simp [hletter, h]
  · exact fun _ _ _ _ _ he _ => hu he

/-- An escape by the number of a control character stands for that character. -/
theorem exists_part_of_control (h : scanParts? tail = some (parts, rest)) (hc : c.toNat < 32) :
    ∃ part, scanParts? (['\\', 'u', '0', '0', Text.hexDigit (c.toNat / 16), Text.hexDigit (c.toNat % 16)] ++
        tail) = some (part :: parts, rest) ∧
      join? none (part :: parts) = (join? none parts).map (c :: ·) := by
  have hunit : hex4? '0' '0' (Text.hexDigit (c.toNat / 16)) (Text.hexDigit (c.toNat % 16)) =
      some c.toNat := by
    have hhigh := Text.hexValue?_hexDigit (n := c.toNat / 16) (by omega)
    have hlow := Text.hexValue?_hexDigit (n := c.toNat % 16) (by omega)
    have hzero : Text.hexValue? '0' = some 0 := by decide
    simp only [hex4?, hzero, hhigh, hlow, Option.bind_eq_bind, Option.bind_some, Option.pure_def]
    congr 1
    omega
  -- A control character is no half of a pair, so nothing is joined to it.
  have hhalf : isHigh c.toNat = false ∧ isLow c.toNat = false := by
    simp only [isHigh, isLow, Bool.and_eq_false_iff, decide_eq_false_iff_not]
    omega
  have hchar : Char.ofNat c.toNat = c := Char.ofNat_toNat c
  refine ⟨.unit c.toNat, by simp [scanParts?, hunit, h], ?_⟩
  rw [join?, joinUnit?, hhalf.1, hhalf.2]
  simp only [Bool.false_eq_true, if_false, hchar, Option.bind_eq_bind, Option.bind_some, Option.pure_def]
  cases join? none parts <;> rfl

/-- One character of a string is scanned as one part, which stands for that character. -/
theorem exists_part_escape (c : Char) (h : scanParts? tail = some (parts, rest)) :
    ∃ part, scanParts? (escape c ++ tail) = some (part :: parts, rest) ∧
      join? none (part :: parts) = (join? none parts).map (c :: ·) := by
  unfold escape
  split
  · next hc => exact exists_part_of_letter h (show '"' ≠ 'u' by decide) (by rw [hc]; rfl)
  split
  · next hc => exact exists_part_of_letter h (show '\\' ≠ 'u' by decide) (by rw [hc]; rfl)
  split
  · next hc => exact exists_part_of_letter h (show 'n' ≠ 'u' by decide) (by rw [hc]; rfl)
  split
  · next hc => exact exists_part_of_letter h (show 'r' ≠ 'u' by decide) (by rw [hc]; rfl)
  split
  · next hc => exact exists_part_of_letter h (show 't' ≠ 'u' by decide) (by rw [hc]; rfl)
  split
  · next hc =>
    rw [char_eq_of_toNat (d := '\x08') hc]
    exact exists_part_of_letter h (show 'b' ≠ 'u' by decide) rfl
  split
  · next hc =>
    rw [char_eq_of_toNat (d := '\x0c') hc]
    exact exists_part_of_letter h (show 'f' ≠ 'u' by decide) rfl
  split
  · next hc => exact exists_part_of_control h hc
  · next hquote hslash _ _ _ _ _ hcontrol =>
    refine ⟨.char c, ?_, rfl⟩
    rw [List.singleton_append, scanParts?]
    · rw [if_neg hquote, if_neg (by simp [hslash, hcontrol]), h]
      rfl
    · exact fun _ _ _ _ _ he _ => hslash he
    · exact fun _ _ he _ => hslash he

end

/-- The parts of a string, escaped and joined again, are the string. -/
theorem exists_parts_escape (s rest : List Char) :
    ∃ parts, scanParts? (s.flatMap escape ++ '"' :: rest) = some (parts, rest) ∧
      join? none parts = some s := by
  induction s with
  | nil => exact ⟨[], by simp [scanParts?], rfl⟩
  | cons c s ih =>
    obtain ⟨parts, hscan, hjoin⟩ := ih
    obtain ⟨part, hpart, hstep⟩ := exists_part_escape c hscan
    refine ⟨part :: parts, ?_, by rw [hstep, hjoin]; rfl⟩
    rw [List.flatMap_cons, List.append_assoc]
    exact hpart

/-- A string in quotes is scanned as this string. -/
theorem next?_renderString (s : String) (rest : List Char) :
    next? (renderString s ++ rest) = some (.string (some s), rest) := by
  obtain ⟨parts, hscan, hjoin⟩ := exists_parts_escape s.toList rest
  have htext : renderString s ++ rest = '"' :: (s.toList.flatMap escape ++ '"' :: rest) := by
    simp [renderString]
  have hparts : ofParts parts = .string (some s) := by
    rw [ofParts, hjoin, Option.map_some, String.ofList_toList]
  rw [htext, next?, hscan, ← hparts]
  rfl

/-- What begins with a numeral is no other token. -/
theorem next?_of_scanNumeral? {s rest : List Char} {n : Number.Numeral}
    (h : Number.scanNumeral? s = some (n, rest)) : next? s = some (ofNumeral n, rest) := by
  unfold next?
  split
  case h_11 => rw [h, Option.map_some]
  all_goals
    simp [Number.scanNumeral?, Number.scanMinus, Char.isDigit] at h

/-- A number in front of a text that does not go on with it is scanned as this number. -/
theorem next?_number {n : Number} {rest : List Char} (hrest : Number.EndsNumeral rest)
    (h : Number.ofText? n.text = some n) :
    next? (n.text ++ rest) = some (.scalar (some (.num n)), rest) := by
  obtain ⟨numeral, hscan, hvalue⟩ := Number.ofText?_eq_some h
  rw [next?_of_scanNumeral? (Number.scanNumeral?_append hrest hscan), ofNumeral, hvalue, Option.map_some]

/-- A token does not begin with a blank. -/
theorem not_isSpace_of_next? {c : Char} {r rest : List Char} {t : Token}
    (h : next? (c :: r) = some (t, rest)) : isSpace c = false := by
  refine Bool.eq_false_iff.2 fun hspace => ?_
  simp only [isSpace, Bool.or_eq_true, decide_eq_true_eq] at hspace
  rcases hspace with ((rfl | rfl) | rfl) | rfl <;>
    simp [next?, Number.scanNumeral?, Number.scanMinus, Char.isDigit] at h

end Token

/-- After a token come the tokens of what follows it. -/
theorem scanTokens_of_next? {s rest : List Char} {t : Token} (h : Token.next? s = some (t, rest)) :
    scanTokens s = (t :: (scanTokens rest).1, (scanTokens rest).2) := by
  cases s with
  | nil => cases h
  | cons c r =>
    have hdrop : (c :: r).dropWhile Token.isSpace = c :: r := by
      simp [Token.not_isSpace_of_next? h]
    rw [scanTokens.eq_def]
    split
    · next hnil =>
      rw [hdrop] at hnil
      cases hnil
    · next c' r' hcons =>
      rw [hdrop] at hcons
      cases hcons
      split
      · next hnone =>
        rw [h] at hnone
        cases hnone
      · next t' rest' hsome =>
        rw [h] at hsome
        cases hsome
        rfl

/-! ## The tokens of a value -/

mutual

/-- The tokens of a value. -/
def tokensOf : Json → List Token
  | .null => [.scalar (some .null)]
  | .bool b => [.scalar (some (.bool b))]
  | .num n => [.scalar (some (.num n))]
  | .str s => [.string (some s)]
  | .arr [] => [.openArray, .closeArray]
  | .arr (v :: rest) => .openArray :: tokensOf v ++ tokensOfItems rest
  | .obj [] => [.openObject, .closeObject]
  | .obj ((k, v) :: rest) =>
    .openObject :: .string (some k) :: .colon :: tokensOf v ++ tokensOfMembers rest

/-- The tokens of the items after the first one, and the closing bracket. -/
def tokensOfItems : List Json → List Token
  | [] => [.closeArray]
  | v :: rest => .comma :: tokensOf v ++ tokensOfItems rest

/-- The tokens of the members after the first one, and the closing brace. -/
def tokensOfMembers : List (String × Json) → List Token
  | [] => [.closeObject]
  | (k, v) :: rest => .comma :: .string (some k) :: .colon :: tokensOf v ++ tokensOfMembers rest

end

/-- The text of a value is scanned as the tokens of that value, whatever follows it. -/
def Scans (v : Json) : Prop :=
  ∀ rest : List Char, Number.EndsNumeral rest →
    scanTokens (v.render ++ rest) = (v.tokensOf ++ (scanTokens rest).1, (scanTokens rest).2)

theorem endsNumeral_renderItems (items : List Json) (rest : List Char) :
    Number.EndsNumeral (renderItems items ++ rest) := by
  cases items <;> exact Number.endsNumeral_cons (by decide)

theorem endsNumeral_renderMembers (members : List (String × Json)) (rest : List Char) :
    Number.EndsNumeral (renderMembers members ++ rest) := by
  cases members <;> exact Number.endsNumeral_cons (by decide)

/-- The items after the first one are scanned as their tokens. -/
theorem scanTokens_items {items : List Json} (h : ∀ v ∈ items, Scans v) (rest : List Char) :
    scanTokens (renderItems items ++ rest) =
      (tokensOfItems items ++ (scanTokens rest).1, (scanTokens rest).2) := by
  induction items with
  | nil => exact scanTokens_of_next? rfl
  | cons v more ih =>
    have hv := h v (List.mem_cons_self ..) (renderItems more ++ rest) (endsNumeral_renderItems more rest)
    have hmore := ih fun w hw => h w (List.mem_cons_of_mem _ hw)
    rw [renderItems, List.cons_append, List.cons_append, List.append_assoc,
      scanTokens_of_next? (t := .comma) rfl, hv, hmore]
    simp [tokensOfItems]

/-- A key, the colon after it, its value, and what follows them. -/
theorem scanTokens_member {key : String} {v : Json} (hv : Scans v) {rest : List Char}
    (hrest : Number.EndsNumeral rest) :
    scanTokens (renderString key ++ ':' :: (v.render ++ rest)) =
      (.string (some key) :: .colon :: v.tokensOf ++ (scanTokens rest).1, (scanTokens rest).2) := by
  rw [scanTokens_of_next? (Token.next?_renderString key _), scanTokens_of_next? (t := .colon) rfl,
    hv rest hrest]
  rfl

/-- The members after the first one are scanned as their tokens. -/
theorem scanTokens_members {members : List (String × Json)} (h : ∀ e ∈ members, Scans e.2)
    (rest : List Char) :
    scanTokens (renderMembers members ++ rest) =
      (tokensOfMembers members ++ (scanTokens rest).1, (scanTokens rest).2) := by
  induction members with
  | nil => exact scanTokens_of_next? rfl
  | cons e more ih =>
    obtain ⟨key, v⟩ := e
    have hv : Scans v := h (key, v) (List.mem_cons_self ..)
    have hmore := ih fun w hw => h w (List.mem_cons_of_mem _ hw)
    have htext : renderMembers ((key, v) :: more) ++ rest =
        ',' :: (renderString key ++ ':' :: (v.render ++ (renderMembers more ++ rest))) := by
      simp [renderMembers]
    rw [htext, scanTokens_of_next? (t := .comma) rfl,
      scanTokens_member hv (endsNumeral_renderMembers more rest), hmore]
    simp [tokensOfMembers]

/-- A double in its text is the double that the text is read as. -/
def DoubleReadsBack : Json → Prop
  | .num (.float x h) => Number.ofText? (Number.floatText x) = some (.float x h)
  | _ => True

/-- The text of a value whose doubles read back is scanned as its tokens. -/
theorem scans {v : Json} (h : v.Everywhere DoubleReadsBack) : Scans v := by
  induction v using forall_of_parts with
  | scalar v harr hobj =>
    intro rest hrest
    cases v with
    | null => exact scanTokens_of_next? rfl
    | bool b => cases b <;> exact scanTokens_of_next? rfl
    -- Only a number needs that what follows does not continue it.
    | num n =>
      have hn : Number.ofText? n.text = some n := by
        cases n with
        | integer n hrange => exact Number.ofText?_integerText hrange
        | float x hfinite => exact (everywhere_iff.1 h).1
      exact scanTokens_of_next? (Token.next?_number hrest hn)
    | str s => exact scanTokens_of_next? (Token.next?_renderString s rest)
    | arr items => exact absurd rfl (harr items)
    | obj members => exact absurd rfl (hobj members)
  | arr items ih =>
    intro rest hrest
    have hitems : ∀ v ∈ items, Scans v := fun v hv => ih v hv ((everywhere_arr_iff.1 h).2 v hv)
    cases items with
    | nil =>
      show scanTokens ('[' :: ']' :: rest) = _
      rw [scanTokens_of_next? (t := .openArray) rfl, scanTokens_of_next? (t := .closeArray) rfl]
      rfl
    | cons v more =>
      have hv := hitems v (List.mem_cons_self ..) (renderItems more ++ rest)
        (endsNumeral_renderItems more rest)
      have hmore := scanTokens_items (fun w hw => hitems w (List.mem_cons_of_mem _ hw)) rest
      rw [render, List.cons_append, List.cons_append, List.append_assoc,
        scanTokens_of_next? (t := .openArray) rfl, hv, hmore]
      simp [tokensOf]
  | obj members ih =>
    intro rest hrest
    have hmembers : ∀ e ∈ members, Scans e.2 := fun e he =>
      ih e he ((everywhere_obj_iff.1 h).2 e he)
    cases members with
    | nil =>
      show scanTokens ('\x7b' :: '\x7d' :: rest) = _
      rw [scanTokens_of_next? (t := .openObject) rfl, scanTokens_of_next? (t := .closeObject) rfl]
      rfl
    | cons e more =>
      obtain ⟨key, v⟩ := e
      have hv : Scans v := hmembers (key, v) (List.mem_cons_self ..)
      have hmore := scanTokens_members (fun w hw => hmembers w (List.mem_cons_of_mem _ hw)) rest
      -- The first member has no comma before it, so it is not among those of `renderMembers`.
      have htext : render (.obj ((key, v) :: more)) ++ rest =
          '\x7b' :: (renderString key ++ ':' :: (v.render ++ (renderMembers more ++ rest))) := by
        simp [render]
      rw [htext, scanTokens_of_next? (t := .openObject) rfl,
        scanTokens_member hv (endsNumeral_renderMembers more rest), hmore]
      simp [tokensOf]

/-! ## The machine on the tokens of a value -/

/-- The tokens of a value bring the machine to the end of that value, whatever is open around it and
whatever follows it. -/
def Runs (v : Json) : Prop :=
  ∀ (stack : List Frame) (ts : List Token), stack.length + v.depth ≤ maxDepth →
    (Reading.value .all stack).run? (v.tokensOf ++ ts) = (Reading.complete v stack).run? ts

/-- No value begins with a closing bracket. -/
theorem exists_cons_tokensOf (v : Json) : ∃ t ts, v.tokensOf = t :: ts ∧ t ≠ .closeArray := by
  cases v with
  | arr items => cases items <;> exact ⟨_, _, rfl, Token.noConfusion⟩
  | obj members => cases members <;> exact ⟨_, _, rfl, Token.noConfusion⟩
  | _ => exact ⟨_, _, rfl, Token.noConfusion⟩

namespace Reading

variable {stack : List Frame} {ts : List Token}

/-- The first item of an array is read like any value. -/
theorem run?_firstItem (v : Json) :
    (firstItem .all stack).run? (v.tokensOf ++ ts) =
      (value .all (.array .all [] :: stack)).run? (v.tokensOf ++ ts) := by
  obtain ⟨t, more, htokens, hne⟩ := exists_cons_tokensOf v
  have hstep : (firstItem .all stack).step? t = (value .all (.array .all [] :: stack)).step? t := by
    cases t with
    | closeArray => exact absurd rfl hne
    | _ => rfl
  rw [htokens, List.cons_append, run?, run?, hstep]

/-- The machine follows the items of an array to its end. -/
theorem run?_items {v : Json} {items done : List Json} (hitems : ∀ w ∈ items, Runs w)
    (hdepth : stack.length + 1 + depthItems items ≤ maxDepth) :
    (complete v (.array .all done :: stack)).run? (tokensOfItems items ++ ts) =
      (complete (.arr (done.reverse ++ v :: items)) stack).run? ts := by
  induction items generalizing v done with
  | nil =>
    rw [← List.reverse_cons]
    rfl
  | cons w more ih =>
    rw [depthItems] at hdepth
    have hw := hitems w (List.mem_cons_self ..) (.array .all (v :: done) :: stack)
      (tokensOfItems more ++ ts) (by rw [List.length_cons]; omega)
    have hmore := @ih w (v :: done) (fun u hu => hitems u (List.mem_cons_of_mem _ hu))
      (by omega)
    rw [tokensOfItems, List.cons_append, List.cons_append, List.append_assoc]
    refine Eq.trans hw (hmore.trans ?_)
    rw [List.reverse_cons, List.append_assoc]
    rfl

/-- The machine follows the members of an object to its end. -/
theorem run?_members {key : String} {v : Json} {members done : List (String × Json)}
    (hmembers : ∀ e ∈ members, Runs e.2)
    (hdepth : stack.length + 1 + depthMembers members ≤ maxDepth) :
    (complete v (.object .all done key :: stack)).run? (tokensOfMembers members ++ ts) =
      (complete (.obj (done.reverse ++ (key, v) :: members)) stack).run? ts := by
  induction members generalizing key v done with
  | nil =>
    rw [← List.reverse_cons]
    rfl
  | cons e more ih =>
    obtain ⟨k, w⟩ := e
    rw [depthMembers] at hdepth
    have hw : Runs w := hmembers (k, w) (List.mem_cons_self ..)
    have hrun := hw (.object .all ((key, v) :: done) k :: stack) (tokensOfMembers more ++ ts)
      (by rw [List.length_cons]; omega)
    have hmore := @ih k w ((key, v) :: done)
      (fun u hu => hmembers u (List.mem_cons_of_mem _ hu)) (by omega)
    simp only [tokensOfMembers, List.cons_append, List.append_assoc]
    refine Eq.trans hrun (hmore.trans ?_)
    rw [List.reverse_cons, List.append_assoc]
    rfl

end Reading

/-- The tokens of any value bring the machine to its end. -/
theorem runs (v : Json) : Runs v := by
  induction v using forall_of_parts with
  | scalar v harr hobj =>
    intro stack ts _
    cases v with
    | arr items => exact absurd rfl (harr items)
    | obj members => exact absurd rfl (hobj members)
    | _ => rfl
  | arr items ih =>
    intro stack ts hdepth
    rw [depth] at hdepth
    have hroom : Reading.hasRoom .all stack = true := by
      simp only [Reading.hasRoom, Bool.or_eq_true, decide_eq_true_eq]
      omega
    cases items with
    -- An empty array closes at once; otherwise its first item is read apart, for it has no comma before it.
    | nil => simp [tokensOf, Reading.run?, Reading.step?, Reading.stepValue?, hroom]
    | cons v more =>
      rw [depthItems] at hdepth
      have hopen : (Reading.value .all stack).step? .openArray = some (.firstItem .all stack) :=
        if_pos hroom
      have hv := ih v (List.mem_cons_self ..) (.array .all [] :: stack) (tokensOfItems more ++ ts)
        (by rw [List.length_cons]; omega)
      rw [tokensOf, List.cons_append, List.cons_append, List.append_assoc, Reading.run?, hopen,
        Option.bind_some, Reading.run?_firstItem, hv,
        Reading.run?_items (fun w hw => ih w (List.mem_cons_of_mem _ hw)) (by omega)]
      rfl
  | obj members ih =>
    intro stack ts hdepth
    rw [depth] at hdepth
    have hroom : Reading.hasRoom .all stack = true := by
      simp only [Reading.hasRoom, Bool.or_eq_true, decide_eq_true_eq]
      omega
    cases members with
    | nil => simp [tokensOf, Reading.run?, Reading.step?, Reading.stepValue?, hroom]
    | cons e more =>
      obtain ⟨key, v⟩ := e
      rw [depthMembers] at hdepth
      have hopen : (Reading.value .all stack).step? .openObject = some (.firstKey .all stack) :=
        if_pos hroom
      -- As with arrays, and the key of the first member stands on the stack while its value is read.
      have hv : Runs v := ih (key, v) (List.mem_cons_self ..)
      have hrun := hv (.object .all [] key :: stack) (tokensOfMembers more ++ ts)
        (by rw [List.length_cons]; omega)
      have hmore : (Reading.complete v (.object .all [] key :: stack)).run? (tokensOfMembers more ++ ts) =
          (Reading.complete (.obj ([].reverse ++ (key, v) :: more)) stack).run? ts :=
        Reading.run?_members (fun w hw => ih w (List.mem_cons_of_mem _ hw)) (by omega)
      simp only [tokensOf, List.cons_append, List.append_assoc]
      rw [Reading.run?, hopen, Option.bind_some]
      exact hrun.trans hmore

/-! ## The text of a value -/

theorem scanTokens_nil : scanTokens [] = ([], []) := by
  rw [scanTokens.eq_def]
  rfl

/-- A value whose doubles read back has a text made of its tokens. -/
theorem tokens?_render {v : Json} (h : v.Everywhere DoubleReadsBack) :
    tokens? v.render = some v.tokensOf := by
  have hscan := scans h [] Number.endsNumeral_nil
  rw [List.append_nil, scanTokens_nil, List.append_nil] at hscan
  rw [tokens?, hscan]

/-- A normal value is read from its text. -/
theorem ofText?_text {v : Json} (hnormal : v.IsNormal) (hdepth : v.depth ≤ maxDepth)
    (h : v.Everywhere DoubleReadsBack) : ofText? v.text = some v := by
  have hrun := runs v [] [] (by simpa using hdepth)
  rw [List.append_nil] at hrun
  have hparse : parse? .all v.render = some v := by
    simp only [parse?, tokens?_render h, Option.bind_eq_bind, Option.bind_some, Reading.start, hrun]
    rfl
  rw [ofText?, text, String.toList_ofList, hparse, Option.map_some, hnormal]

/-- The empty text is no value. -/
theorem ofText?_empty : ofText? "" = none := by
  have htokens : tokens? "".toList = some [] := by
    rw [tokens?, show "".toList = [] from rfl, scanTokens_nil]
  rw [ofText?, parse?, htokens]
  rfl

end WebOfThings.Json
