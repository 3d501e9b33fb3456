import WebOfThings.Cbor.Reader
import WebOfThings.Cbor.Writer
import WebOfThings.Proofs.Binary64.Narrow
import WebOfThings.Proofs.Json.Normal

/-!
# Values that are read from their CBOR

Heads are read whatever their width (`head?_head`), doubles from the shortest format that takes them
(`head?_writeNumber_float`). From there the machine is followed through a value: the bytes of an item bring
it to the end of that item (`ReadsBack`), by induction over the value with one run over the items of an
array and one over the members of a map.

There is one exception, the limit on the first key of a map: a value is read from its bytes exactly if every
object in it has a first key that is not too long (`read?_write_eq_some_iff`).

The codec of CBOR is one of the built-in codecs and the fallback of media types without one, so this decides
which contents come back. The depth of a value is what the stack of the reader bounds. That the reader
refuses a long first key is shown by the same induction in the other direction: up to the key the machine
runs as before, and there it stops (`run?_of_step?_eq_none`).
-/

namespace WebOfThings.Cbor

variable {rest : List UInt8}

/-! ## Heads -/

/-- A number that fits its bytes is read from them. -/
theorem ofBigEndian_bigEndian {k n : Nat} (h : n < 256 ^ k) : ofBigEndian (bigEndian k n) = n := by
  induction k generalizing n with
  | zero =>
    have : n = 0 := by simpa using h
    rw [this]
    rfl
  | succ k ih =>
    have hhigh : n / 256 < 256 ^ k := by
      rw [Nat.pow_succ] at h
      omega
    have hlow : (UInt8.ofNat (n % 256)).toNat = n % 256 :=
      UInt8.toNat_ofNat_of_lt (Nat.mod_lt n (by decide))
    have hstep : ofBigEndian (bigEndian k (n / 256) ++ [UInt8.ofNat (n % 256)]) =
        256 * ofBigEndian (bigEndian k (n / 256)) + n % 256 := by
      simp only [ofBigEndian, List.foldl_append, List.foldl_cons, List.foldl_nil, hlow]
    rw [bigEndian, hstep, ih hhigh]
    exact Nat.div_add_mod n 256

/-- A number is read from its bytes, and what follows is left. -/
theorem number?_bigEndian {k n : Nat} (h : n < 256 ^ k) :
    number? k (bigEndian k n ++ rest) = some (n, rest) := by
  have hlength := length_bigEndian k n
  rw [number?, if_pos (by simp [hlength]), List.take_left' hlength, List.drop_left' hlength,
    ofBigEndian_bigEndian h]

/-- The first byte of an item holds the major type and five more bits. -/
theorem head?_cons {major info : Nat} (hmajor : major < 8) (hinfo : info < 32) {bytes : List UInt8} :
    head? (UInt8.ofNat (major * 32 + info) :: bytes) =
      (argument? info bytes).bind fun a =>
        (Head.ofArgument? major info a.1).bind fun hd => some (hd, a.2) := by
  have hbyte : (UInt8.ofNat (major * 32 + info)).toNat = major * 32 + info :=
    UInt8.toNat_ofNat_of_lt (by show _ < 256; omega)
  have hhigh : (major * 32 + info) / 32 = major := by omega
  have hlow : (major * 32 + info) % 32 = info := by omega
  simp only [head?, hbyte, hhigh, hlow, Option.bind_eq_bind, Option.pure_def]

section

variable {major n : Nat} {hd : Head} (hmajor : major < 8)

include hmajor

/-- A head whose argument stands in the `k` bytes after the first one. -/
theorem head?_bigEndian {info k : Nat} (hinfo : info < 32)
    (hargument : ∀ bytes, argument? info bytes = (number? k bytes).map fun (n, rest) => (some n, rest))
    (hn : n < 256 ^ k) (hhead : Head.ofArgument? major info (some n) = some hd) :
    head? (UInt8.ofNat (major * 32 + info) :: bigEndian k n ++ rest) = some (hd, rest) := by
  rw [List.cons_append, head?_cons hmajor hinfo, hargument, number?_bigEndian hn, Option.map_some,
    Option.bind_some, hhead, Option.bind_some]

/-- A head is read as it was written, whatever its width. -/
theorem head?_head (hd : Head) (hn : n < 18446744073709551616)
    (hhead : ∀ info, Head.ofArgument? major info (some n) = some hd) :
    head? (head major n ++ rest) = some (hd, rest) := by
  unfold head
  split
  · next h =>
    rw [List.singleton_append, head?_cons hmajor (by omega), argument?, if_pos h, Option.bind_some, hhead,
      Option.bind_some]
  split
  · next h => exact head?_bigEndian hmajor (by decide) (fun _ => rfl) h (hhead _)
  split
  · next h => exact head?_bigEndian hmajor (by decide) (fun _ => rfl) h (hhead _)
  split
  · next h => exact head?_bigEndian hmajor (by decide) (fun _ => rfl) h (hhead _)
  · exact head?_bigEndian hmajor (by decide) (fun _ => rfl) hn (hhead _)

end

/-- A double has 64 bits. -/
theorem toBits_lt (x : Binary64) : x.toBits < 18446744073709551616 := by
  have hexponent := x.exponent_lt
  have hfraction := x.fraction_lt
  simp only [Binary64.exponentCount] at hexponent
  simp only [Binary64.fractionCount] at hfraction
  simp only [Binary64.toBits, Binary64.magnitude, Binary64.exponentCount, Binary64.fractionCount]
  split <;> omega

/-- A double is read from the shortest format that takes it. -/
theorem head?_writeNumber_float {x : Binary64} (h : x.isFinite = true) :
    head? (writeNumber (.float x h) ++ rest) = some (.float x, rest) := by
  simp only [writeNumber]
  split
  · next bits hbits =>
    have hlt : bits < 65536 := BinaryFormat.narrow?_lt (by decide) (by decide) h hbits
    have hx := BinaryFormat.widen_narrow? (by decide) (by decide) h hbits
    exact head?_bigEndian (show 7 < 8 by decide) (show 25 < 32 by decide) (fun _ => rfl) hlt
      (congrArg (fun x => some (Head.float x)) hx)
  split
  · next bits hbits =>
    have hlt : bits < 4294967296 := BinaryFormat.narrow?_lt (by decide) (by decide) h hbits
    have hx := BinaryFormat.widen_narrow? (by decide) (by decide) h hbits
    exact head?_bigEndian (show 7 < 8 by decide) (show 26 < 32 by decide) (fun _ => rfl) hlt
      (congrArg (fun x => some (Head.float x)) hx)
  · exact head?_bigEndian (show 7 < 8 by decide) (show 27 < 32 by decide) (fun _ => rfl) (toBits_lt x)
      (congrArg (fun x => some (Head.float x)) x.ofBits_toBits)

/-! ## The machine -/

namespace Reading

variable {stack : List Frame}

/-- A run goes on from what a step leaves. -/
theorem run?_of_step? {m m' : Reading} {bytes after : List UInt8}
    (h : m.step? bytes = some (m', after)) : m.run? bytes = m'.run? after := by
  rw [run?.eq_def]
  split
  · simp [step?] at h
  · split
    · next hnone => rw [h] at hnone; cases hnone
    · next m'' after' hsome =>
      rw [h] at hsome
      cases hsome
      rfl

/-- A run fails where no step can be taken before the end. -/
theorem run?_of_step?_eq_none {m : Reading} {bytes : List UInt8} (hm : ∀ v, m ≠ .done v)
    (h : m.step? bytes = none) : m.run? bytes = none := by
  rw [run?.eq_def]
  split
  · next v => exact absurd rfl (hm v)
  · split
    · rfl
    · next hsome => rw [h] at hsome; cases hsome

/-- An item is read by its head and the step that follows it. -/
theorem run?_item {bytes after : List UInt8} {hd : Head} {m : Reading}
    (hhead : head? bytes = some (hd, after)) (hstep : stepItem? stack hd after = some (m, rest)) :
    (item stack).run? bytes = m.run? rest :=
  run?_of_step? (by rw [step?, hhead]; exact hstep)

/-- A number is read as it was written. -/
theorem run?_number (n : Number) :
    (item stack).run? (writeNumber n ++ rest) = (close (.num n) stack).run? rest := by
  cases n with
  | integer n h =>
    rw [writeNumber]
    split
    · next hn =>
      refine run?_item (head?_head (by decide) (.unsigned n.toNat) (by omega) fun _ => rfl) ?_
      rw [stepItem?, Int.toNat_of_nonneg hn, Number.ofInt?_eq_some h]
      rfl
    · next hn =>
      refine run?_item (head?_head (by decide) (.negative (-1 - n).toNat) (by omega) fun _ => rfl) ?_
      rw [stepItem?, Int.toNat_of_nonneg (by omega), show -1 - (-1 - n) = n by omega,
        Number.ofInt?_eq_some h]
      rfl
  | float x h =>
    refine run?_item (head?_writeNumber_float h) ?_
    rw [stepItem?, Json.ofBinary64, Number.ofBinary64?, dif_pos h]

/-- A text is read from its bytes. -/
theorem text?_utf8 (s : String) :
    text? (some (Text.utf8 s).length) (Text.utf8 s ++ rest) = some (s, rest) := by
  have hcontent : content? (some (Text.utf8 s).length) (Text.utf8 s ++ rest) =
      some ([Text.utf8 s], rest) := by
    rw [content?, if_pos (by simp), List.take_left, List.drop_left]
  simp [text?, hcontent, Text.ofUtf8?_utf8, String.join]

/-- A text where a key is expected. The limit on the first key counts for no other. -/
theorem run?_key {key : String} {n : Nat} {members : List (String × Json)}
    (hlength : (Text.utf8 key).length < 18446744073709551616)
    (hfirst : members = [] → (Text.utf8 key).length ≤ maxFirstKey) :
    (nextKey false (some n) members stack).run? (writeText key ++ rest) =
      (item (.map (some n) members key :: stack)).run? rest := by
  have hfits : ¬ (members.isEmpty && !((some (Text.utf8 key).length).any fun n => n ≤ maxFirstKey)) := by
    cases members with
    | nil => simp [hfirst rfl]
    | cons m more => simp
  rw [writeText, List.append_assoc]
  refine run?_of_step? ?_
  rw [step?, head?_head (by decide) (.text (some (Text.utf8 key).length)) hlength fun _ => rfl]
  simp only [Option.bind_eq_bind, Option.bind_some, stepKey?]
  rw [if_neg hfits, text?_utf8]
  rfl

end Reading

/-! ## Sizes -/

theorem head_ne_nil (major n : Nat) : head major n ≠ [] := by
  unfold head
  split
  · simp
  split
  · simp
  split
  · simp
  split <;> simp

theorem write_ne_nil (v : Json) : write v ≠ [] := by
  cases v with
  | null => simp [write]
  | bool b => cases b <;> simp [write]
  | num n =>
    cases n with
    | integer n h =>
      rw [write, writeNumber]
      split <;> exact head_ne_nil _ _
    | float x h =>
      simp only [write, writeNumber]
      split
      · simp
      · split <;> simp
  | str s => simp [write, writeText, head_ne_nil]
  | arr items => simp [write, head_ne_nil]
  | obj members => simp [write, head_ne_nil]

/-- Every item takes at least one byte. -/
theorem length_le_writeItems (items : List Json) : items.length ≤ (writeItems items).length := by
  induction items with
  | nil => exact Nat.le_refl _
  | cons v more ih =>
    have := List.length_pos_iff.2 (write_ne_nil v)
    simp only [writeItems, List.length_append, List.length_cons]
    omega

/-- Every member takes at least one byte. -/
theorem length_le_writeMembers (members : List (String × Json)) :
    members.length ≤ (writeMembers members).length := by
  induction members with
  | nil => exact Nat.le_refl _
  | cons e more ih =>
    obtain ⟨key, v⟩ := e
    have := List.length_pos_iff.2 (write_ne_nil v)
    simp only [writeMembers, List.length_append, List.length_cons]
    omega

/-- The items of an array take no more bytes than the array. -/
theorem length_writeItems_le (items : List Json) :
    (writeItems items).length ≤ (write (.arr items)).length := by
  rw [write, List.length_append]
  exact Nat.le_add_left ..

/-- The members of an object take no more bytes than the object. -/
theorem length_writeMembers_le (members : List (String × Json)) :
    (writeMembers members).length ≤ (write (.obj members)).length := by
  rw [write, List.length_append]
  exact Nat.le_add_left ..

/-- An item takes no more bytes than all of them. -/
theorem length_write_le_of_mem_items {items : List Json} {v : Json} (h : v ∈ items) :
    (write v).length ≤ (writeItems items).length := by
  induction items with
  | nil => cases h
  | cons w more ih =>
    rw [writeItems, List.length_append]
    rcases List.mem_cons.1 h with rfl | h
    · omega
    · have := ih h
      omega

/-- A member takes no more bytes than all of them. -/
theorem length_write_le_of_mem_members {members : List (String × Json)} {e : String × Json}
    (h : e ∈ members) : (write e.2).length ≤ (writeMembers members).length := by
  induction members with
  | nil => cases h
  | cons m more ih =>
    obtain ⟨key, w⟩ := m
    simp only [writeMembers, List.length_append]
    rcases List.mem_cons.1 h with rfl | h
    · show (write w).length ≤ _
      omega
    · have := ih h
      omega

/-! ## Values that are read -/

/-- The bytes of a value bring the machine to the end of that value, whatever is open around it and
whatever follows it. -/
def ReadsBack (v : Json) : Prop :=
  ∀ (stack : List Frame) (rest : List UInt8), stack.length + v.depth ≤ maxDepth →
    (Reading.item stack).run? (write v ++ rest) = (Reading.close v stack).run? rest

namespace Reading

variable {stack : List Frame}

/-- The machine inside of an array that has items. -/
theorem run?_openArray {items : List Json} (hne : items ≠ []) (hroom : stack.length < maxDepth)
    (hlength : items.length < 18446744073709551616) :
    (item stack).run? (write (.arr items) ++ rest) =
      (item (.array (some items.length) [] :: stack)).run? (writeItems items ++ rest) := by
  have hsome : (some items.length : Option Nat) ≠ some 0 := by simpa using hne
  rw [write, List.append_assoc]
  refine run?_item (head?_head (by decide) (.array (some items.length)) hlength fun _ => rfl) ?_
  rw [stepItem?, openArray?, if_pos hroom, if_neg hsome]
  rfl

/-- The machine inside of a map that has members. -/
theorem run?_openMap {members : List (String × Json)} (hne : members ≠ [])
    (hroom : stack.length < maxDepth) (hlength : members.length < 18446744073709551616) :
    (item stack).run? (write (.obj members) ++ rest) =
      (nextKey false (some members.length) [] stack).run? (writeMembers members ++ rest) := by
  have hsome : (some members.length : Option Nat) ≠ some 0 := by simpa using hne
  rw [write, List.append_assoc]
  refine run?_item (head?_head (by decide) (.map (some members.length)) hlength fun _ => rfl) ?_
  rw [stepItem?, openMap?, if_pos hroom, if_neg hsome]
  rfl

/-- Items that read back are read one after the other, up to the end of their array. -/
theorem run?_items {items done : List Json} (hne : items ≠ []) (hitems : ∀ v ∈ items, ReadsBack v)
    (hdepth : stack.length + 1 + Json.depthItems items ≤ maxDepth) :
    (item (.array (some items.length) done :: stack)).run? (writeItems items ++ rest) =
      (close (.arr (done.reverse ++ items)) stack).run? rest := by
  induction items generalizing done with
  | nil => exact absurd rfl hne
  | cons v more ih =>
    rw [Json.depthItems] at hdepth
    rw [writeItems, List.append_assoc,
      hitems v (List.mem_cons_self ..) _ _ (by rw [List.length_cons]; omega), close]
    -- How many items there are tells whether this was the last one.
    cases more with
    | nil =>
      rw [if_pos (by simp)]
      simp [writeItems]
    | cons w more =>
      rw [if_neg (by simp)]
      have hmore := @ih (v :: done) (by simp)
        (fun u hu => hitems u (List.mem_cons_of_mem _ hu)) (by omega)
      simpa using hmore

/-- Members that read back are read one after the other, up to the end of their object. -/
theorem run?_members {members done : List (String × Json)} (hne : members ≠ [])
    (hmembers : ∀ e ∈ members, ReadsBack e.2)
    (hlength : (writeMembers members).length < 18446744073709551616)
    (hfirst : done = [] → ∀ e ∈ members.head?, (Text.utf8 e.1).length ≤ maxFirstKey)
    (hdepth : stack.length + 1 + Json.depthMembers members ≤ maxDepth) :
    (nextKey false (some members.length) done stack).run? (writeMembers members ++ rest) =
      (close (.object (done.reverse ++ members)) stack).run? rest := by
  induction members generalizing done with
  | nil => exact absurd rfl hne
  | cons e more ih =>
    obtain ⟨key, v⟩ := e
    rw [Json.depthMembers] at hdepth
    simp only [writeMembers, writeText, List.length_append] at hlength
    have hkey : (Text.utf8 key).length < 18446744073709551616 := by omega
    have hv : ReadsBack v := hmembers (key, v) (List.mem_cons_self ..)
    -- The bound on the length of a key concerns the first one of an object, where nothing is done yet.
    rw [writeMembers, List.append_assoc, List.append_assoc,
      run?_key hkey fun hdone => hfirst hdone (key, v) rfl,
      hv _ _ (by rw [List.length_cons]; omega), close]
    cases more with
    | nil =>
      rw [if_pos (by simp)]
      simp [writeMembers]
    | cons w more =>
      rw [if_neg (by simp)]
      have hmore := @ih ((key, v) :: done) (by simp)
        (fun u hu => hmembers u (List.mem_cons_of_mem _ hu)) (by omega) (fun h => by cases h) (by omega)
      simpa using hmore

end Reading

/-- The first key of an object is not too long to be read. -/
def FirstKeyFits : Json → Prop
  | .obj ((key, _) :: _) => (Text.utf8 key).length ≤ maxFirstKey
  | _ => True

/-- The first key of an object fits if it is no longer than the limit. -/
theorem firstKeyFits_obj_iff {members : List (String × Json)} :
    FirstKeyFits (.obj members) ↔ ∀ e ∈ members.head?, (Text.utf8 e.1).length ≤ maxFirstKey := by
  cases members with
  | nil => simp [FirstKeyFits]
  | cons e more => simp [FirstKeyFits]

/-- A text reads back. -/
theorem ReadsBack.str {s : String} (hlength : (Text.utf8 s).length < 18446744073709551616) :
    ReadsBack (.str s) := by
  intro stack rest _
  rw [write, writeText, List.append_assoc]
  refine Reading.run?_item
    (head?_head (by decide) (.text (some (Text.utf8 s).length)) hlength fun _ => rfl) ?_
  rw [Reading.stepItem?, Reading.text?_utf8]
  rfl

/-- An array reads back if its items do. -/
theorem ReadsBack.arr {items : List Json} (hitems : ∀ v ∈ items, ReadsBack v)
    (hlength : items.length < 18446744073709551616) : ReadsBack (.arr items) := by
  intro stack rest hdepth
  rw [Json.depth] at hdepth
  have hroom : stack.length < maxDepth := by omega
  by_cases hempty : items = []
  · subst hempty
    refine Reading.run?_item
      (head?_head (show 4 < 8 by decide) (.array (some 0)) (show 0 < 18446744073709551616 by decide)
        fun _ => rfl) ?_
    rw [Reading.stepItem?, Reading.openArray?, if_pos hroom, if_pos rfl]
    rfl
  · rw [Reading.run?_openArray hempty hroom hlength, Reading.run?_items hempty hitems (by omega)]
    rfl

/-- An object reads back if its members do and its first key fits. -/
theorem ReadsBack.obj {members : List (String × Json)} (hsorted : Dict.Sorted members)
    (hmembers : ∀ e ∈ members, ReadsBack e.2)
    (hlength : (writeMembers members).length < 18446744073709551616)
    (hfirst : FirstKeyFits (.obj members)) : ReadsBack (.obj members) := by
  intro stack rest hdepth
  rw [Json.depth] at hdepth
  have hroom : stack.length < maxDepth := by omega
  have hcount := length_le_writeMembers members
  by_cases hempty : members = []
  · subst hempty
    refine Reading.run?_item
      (head?_head (show 5 < 8 by decide) (.map (some 0)) (show 0 < 18446744073709551616 by decide)
        fun _ => rfl) ?_
    rw [Reading.stepItem?, Reading.openMap?, if_pos hroom, if_pos rfl]
    rfl
  · rw [Reading.run?_openMap hempty hroom (by omega),
      Reading.run?_members hempty hmembers hlength (fun _ => firstKeyFits_obj_iff.1 hfirst) (by omega),
      List.reverse_nil, List.nil_append, Json.object, Dict.ofList_eq_self hsorted]

/-- A normal value reads back if every first key in it fits. -/
theorem readsBack {v : Json} (hnormal : v.IsNormal) (hkeys : v.Everywhere FirstKeyFits)
    (hlength : (write v).length < 18446744073709551616) : ReadsBack v := by
  -- Parts are written within the whole, so the bound on the length holds for them, too.
  induction v using Json.forall_of_parts with
  | scalar v harr hobj =>
    cases v with
    | null => exact fun _ _ _ => Reading.run?_item (show head? _ = some (.simple 22, _) from rfl) rfl
    | bool b => cases b with
      | false => exact fun _ _ _ => Reading.run?_item (show head? _ = some (.simple 20, _) from rfl) rfl
      | true => exact fun _ _ _ => Reading.run?_item (show head? _ = some (.simple 21, _) from rfl) rfl
    | num n => exact fun _ _ _ => Reading.run?_number n
    | str s =>
      rw [write, writeText, List.length_append] at hlength
      exact .str (by omega)
    | arr items => exact absurd rfl (harr items)
    | obj members => exact absurd rfl (hobj members)
  | arr items ih =>
    have hitems := length_writeItems_le items
    have hcount := length_le_writeItems items
    refine .arr (fun v hv => ih v hv ?_ ?_ ?_) (by omega)
    · exact Json.isNormal_arr_iff.1 hnormal v hv
    · exact (Json.everywhere_arr_iff.1 hkeys).2 v hv
    · have := length_write_le_of_mem_items hv
      omega
  | obj members ih =>
    obtain ⟨hsorted, hvalues⟩ := Json.isNormal_obj_iff.1 hnormal
    obtain ⟨hfirst, hparts⟩ := Json.everywhere_obj_iff.1 hkeys
    have hmembers := length_writeMembers_le members
    refine .obj hsorted (fun e he => ih e he (hvalues e he) ?_ ?_) (by omega) hfirst
    · exact hparts e he
    · have := length_write_le_of_mem_members he
      omega

/-! ## Values that are refused -/

/-- The machine refuses the bytes of a value, whatever is open around it and whatever follows it. -/
def Refused (v : Json) : Prop :=
  ∀ (stack : List Frame) (rest : List UInt8), stack.length + v.depth ≤ maxDepth →
    (Reading.item stack).run? (write v ++ rest) = none

namespace Reading

variable {stack : List Frame}

/-- The items before the first one that is refused are read. -/
theorem run?_items_of_refused {items done : List Json} (hitems : ∀ v ∈ items, ReadsBack v ∨ Refused v)
    (hrefused : ∃ v ∈ items, Refused v) (hdepth : stack.length + 1 + Json.depthItems items ≤ maxDepth) :
    (item (.array (some items.length) done :: stack)).run? (writeItems items ++ rest) = none := by
  induction items generalizing done with
  | nil =>
    obtain ⟨v, hv, -⟩ := hrefused
    cases hv
  | cons v more ih =>
    rw [Json.depthItems] at hdepth
    have hroom : stack.length + 1 + v.depth ≤ maxDepth := by omega
    rw [writeItems, List.append_assoc]
    rcases hitems v (List.mem_cons_self ..) with hv | hv
    · obtain ⟨w, hw, hrefused⟩ := hrefused
      rcases List.mem_cons.1 hw with rfl | hw
      · exact hrefused _ _ hroom
      · rw [hv _ _ (by rw [List.length_cons]; exact hroom), close,
          if_neg (by simpa using List.ne_nil_of_mem hw)]
        exact ih (fun u hu => hitems u (List.mem_cons_of_mem _ hu)) ⟨w, hw, hrefused⟩ (by omega)
    · exact hv _ _ hroom

/-- A first key that is too long is refused. -/
theorem run?_longKey {key : String} {n : Nat} (hlength : (Text.utf8 key).length < 18446744073709551616)
    (hkey : maxFirstKey < (Text.utf8 key).length) :
    (nextKey false (some n) [] stack).run? (writeText key ++ rest) = none := by
  have hlong : ((some (Text.utf8 key).length).any fun n => decide (n ≤ maxFirstKey)) = false := by
    simpa using hkey
  rw [writeText, List.append_assoc]
  refine run?_of_step?_eq_none (fun _ => Reading.noConfusion) ?_
  rw [step?, head?_head (by decide) (.text (some (Text.utf8 key).length)) hlength fun _ => rfl]
  simp [stepKey?, hlong]

/-- The members before the first one that is refused are read. -/
theorem run?_members_of_refused {members done : List (String × Json)}
    (hmembers : ∀ e ∈ members, ReadsBack e.2 ∨ Refused e.2)
    (hrefused : (done = [] ∧ ∃ e ∈ members.head?, maxFirstKey < (Text.utf8 e.1).length) ∨
      ∃ e ∈ members, Refused e.2)
    (hlength : (writeMembers members).length < 18446744073709551616)
    (hdepth : stack.length + 1 + Json.depthMembers members ≤ maxDepth) :
    (nextKey false (some members.length) done stack).run? (writeMembers members ++ rest) = none := by
  induction members generalizing done with
  | nil => simp at hrefused
  | cons e more ih =>
    obtain ⟨key, v⟩ := e
    rw [Json.depthMembers] at hdepth
    have hroom : stack.length + 1 + v.depth ≤ maxDepth := by omega
    simp only [writeMembers, writeText, List.length_append] at hlength
    have hkey : (Text.utf8 key).length < 18446744073709551616 := by omega
    rw [writeMembers, List.append_assoc, List.append_assoc]
    -- The fault is this key, or this value, or in one of the members after it.
    by_cases hlong : done = [] ∧ maxFirstKey < (Text.utf8 key).length
    · rw [hlong.1]
      exact run?_longKey hkey hlong.2
    rw [run?_key hkey fun hdone => Nat.not_lt.1 fun hlt => hlong ⟨hdone, hlt⟩]
    rcases (hmembers (key, v) (List.mem_cons_self ..) : ReadsBack v ∨ Refused v) with hv | hv
    · rcases hrefused with ⟨hdone, e, ⟨rfl⟩, hlt⟩ | ⟨w, hw, hrefused⟩
      · exact absurd ⟨hdone, hlt⟩ hlong
      rcases List.mem_cons.1 hw with rfl | hw
      · exact hrefused _ _ hroom
      · rw [hv _ _ (by rw [List.length_cons]; exact hroom), close,
          if_neg (by simpa using List.ne_nil_of_mem hw)]
        exact ih (fun u hu => hmembers u (List.mem_cons_of_mem _ hu)) (.inr ⟨w, hw, hrefused⟩)
          (by omega) (by omega)
    · exact hv _ _ hroom

end Reading

/-- Where a first key in an array does not fit, it is in one of the items. -/
theorem exists_item_of_not_everywhere {items : List Json}
    (h : ¬ (Json.arr items).Everywhere FirstKeyFits) : ∃ v ∈ items, ¬ v.Everywhere FirstKeyFits := by
  refine Classical.byContradiction fun hnone => h (Json.everywhere_arr_iff.2 ⟨trivial, fun v hv => ?_⟩)
  exact Classical.not_not.1 fun hkeys => hnone ⟨v, hv, hkeys⟩

/-- Where a first key in an object does not fit, it is its own or in one of the members. -/
theorem exists_member_of_not_everywhere {members : List (String × Json)}
    (h : ¬ (Json.obj members).Everywhere FirstKeyFits) :
    (∃ e ∈ members.head?, maxFirstKey < (Text.utf8 e.1).length) ∨
      ∃ e ∈ members, ¬ e.2.Everywhere FirstKeyFits := by
  refine Classical.byContradiction fun hnone => ?_
  rw [not_or] at hnone
  refine h (Json.everywhere_obj_iff.2 ⟨firstKeyFits_obj_iff.2 fun e he => ?_, fun e he => ?_⟩)
  · exact Nat.not_lt.1 fun hlt => hnone.1 ⟨e, he, hlt⟩
  · exact Classical.not_not.1 fun hkeys => hnone.2 ⟨e, he, hkeys⟩

/-- A value with an object at any depth whose first key is too long is refused. -/
theorem refused {v : Json} (hnormal : v.IsNormal) (hkeys : ¬ v.Everywhere FirstKeyFits)
    (hlength : (write v).length < 18446744073709551616) : Refused v := by
  -- The parts are read back up to the first one that is refused, which there is by induction.
  induction v using Json.forall_of_parts with
  | scalar v harr hobj =>
    refine absurd (Json.everywhere_iff.2 ⟨?_, ?_⟩) hkeys
    · cases v with
      | obj members => exact absurd rfl (hobj members)
      | _ => trivial
    · cases v with
      | arr items => exact absurd rfl (harr items)
      | obj members => exact absurd rfl (hobj members)
      | _ => exact List.forall_mem_nil _
  | arr items ih =>
    intro stack rest hdepth
    rw [Json.depth] at hdepth
    have hitems := length_writeItems_le items
    have hcount := length_le_writeItems items
    have hsize : ∀ v ∈ items, (write v).length < 18446744073709551616 := fun v hv =>
      Nat.lt_of_le_of_lt (length_write_le_of_mem_items hv) (by omega)
    have hnormals := Json.isNormal_arr_iff.1 hnormal
    have heither : ∀ v ∈ items, ReadsBack v ∨ Refused v := by
      intro v hv
      by_cases hfits : v.Everywhere FirstKeyFits
      · exact .inl (readsBack (hnormals v hv) hfits (hsize v hv))
      · exact .inr (ih v hv (hnormals v hv) hfits (hsize v hv))
    obtain ⟨v, hv, hlong⟩ := exists_item_of_not_everywhere hkeys
    rw [Reading.run?_openArray (List.ne_nil_of_mem hv) (by omega) (by omega)]
    exact Reading.run?_items_of_refused heither ⟨v, hv, ih v hv (hnormals v hv) hlong (hsize v hv)⟩ (by omega)
  | obj members ih =>
    intro stack rest hdepth
    rw [Json.depth] at hdepth
    have hmembers := length_writeMembers_le members
    have hcount := length_le_writeMembers members
    have hsize : ∀ e ∈ members, (write e.2).length < 18446744073709551616 := fun e he =>
      Nat.lt_of_le_of_lt (length_write_le_of_mem_members he) (by omega)
    have hnormals := (Json.isNormal_obj_iff.1 hnormal).2
    have heither : ∀ e ∈ members, ReadsBack e.2 ∨ Refused e.2 := by
      intro e he
      by_cases hfits : e.2.Everywhere FirstKeyFits
      · exact .inl (readsBack (hnormals e he) hfits (hsize e he))
      · exact .inr (ih e he (hnormals e he) hfits (hsize e he))
    have hrefused := exists_member_of_not_everywhere hkeys
    have hne : members ≠ [] := by
      rintro rfl
      simp at hrefused
    rw [Reading.run?_openMap hne (by omega) (by omega)]
    refine Reading.run?_members_of_refused heither ?_ (by omega) (by omega)
    rcases hrefused with hlong | ⟨e, he, hlong⟩
    · exact .inl ⟨rfl, hlong⟩
    · exact .inr ⟨e, he, ih e he (hnormals e he) hlong (hsize e he)⟩

/-- A value is read from its bytes exactly if no object in it has a first key that is too long. -/
theorem read?_write_eq_some_iff {v : Json} (hnormal : v.IsNormal)
    (hlength : (write v).length < 18446744073709551616) (hdepth : v.depth ≤ maxDepth) :
    read? (write v) = some v ↔ v.Everywhere FirstKeyFits := by
  have hroom : ([] : List Frame).length + v.depth ≤ maxDepth := by simpa using hdepth
  constructor
  · intro hread
    refine Classical.not_not.1 fun hkeys => ?_
    have hrun := refused hnormal hkeys hlength [] [] hroom
    rw [List.append_nil] at hrun
    rw [read?, hrun] at hread
    cases hread
  · intro hkeys
    have hrun := readsBack hnormal hkeys hlength [] [] hroom
    rw [List.append_nil] at hrun
    rw [read?, hrun, Reading.close, Reading.run?]

end WebOfThings.Cbor
