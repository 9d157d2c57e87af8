import Whistleblower.Lib.Json.RoundTrip

namespace json

/-- Why a text is not read as the type asked for. -/
inductive DecodeError where
  | malformed
  | invalid_type (expected : String)
  | invalid_length (expected : Nat)
  | missing_field (name : String)
  | duplicate_field (name : String)
  deriving DecidableEq, Repr

/-- The text of raw string contents. -/
def string_contents (raw : List UInt8) : Except DecodeError String :=
  match (unescape raw).bind text.from_utf8 with
  | some contents => .ok contents
  | none => .error .malformed

def as_string : Value → Except DecodeError String
  | .string raw => string_contents raw
  | _ => .error (.invalid_type "a string")

/-- The number of a token that is decimal digits and nothing else. -/
def of_decimal (token : List UInt8) : Option Nat :=
  if token.all is_digit then some (token.foldl (fun n b => 10 * n + (b.toNat - 0x30)) 0) else none

/-- A natural number below the bound. A sign, a fraction or an exponent makes
    the token another type's. -/
def as_unsigned (bound : Nat) : Value → Except DecodeError Nat
  | .number token =>
    match of_decimal token with
    | some n => if n < bound then .ok n else .error (.invalid_type "an unsigned number")
    | none => .error (.invalid_type "an unsigned number")
  | _ => .error (.invalid_type "an unsigned number")

def as_list {A : Type} (read : Value → Except DecodeError A) : Value → Except DecodeError (List A)
  | .array elements => elements.mapM read
  | _ => .error (.invalid_type "a sequence")

/-- Members under the text of their names. -/
def named_members (members : List (List UInt8 × Value)) : Except DecodeError (List (String × Value)) :=
  members.mapM fun member => do
    let name ← string_contents member.1
    .ok (name, member.2)

/-- The one member of this name. Members of other names are ignored. -/
def member (members : List (String × Value)) (name : String) : Except DecodeError Value :=
  match members.filter fun entry => entry.1 = name with
  | [] => .error (.missing_field name)
  | [entry] => .ok entry.2
  | _ => .error (.duplicate_field name)

/-- The fields of a record, in the order asked for: from an object by name, or
    from an array of exactly that many elements by position. -/
def fields (names : List String) : Value → Except DecodeError (List Value)
  | .object members => do
    let named ← named_members members
    names.mapM (member named)
  | .array elements =>
    if elements.length = names.length then .ok elements else .error (.invalid_length names.length)
  | _ => .error (.invalid_type "a record")

/-- Read a whole text as a value of a type. -/
def from_slice {A : Type} (read : Value → Except DecodeError A) (input : List UInt8) :
    Except DecodeError A :=
  match parse input with
  | some value => read value
  | none => .error .malformed

/-- How many arrays and objects may stand in one another in a value of no particular type. -/
def max_nesting : Nat := 127

mutual

/-- All strings are text, all numbers are ones that the reader can hold, and no more arrays and
    objects than are left stand in one another. -/
def readable (number_fits : List UInt8 → Bool) (left : Nat) : Value → Bool
  | .null => true
  | .bool _ => true
  | .number token => number_fits token
  | .string raw => (string_contents raw).isOk
  | .array elements => 0 < left && readable_elements number_fits (left - 1) elements
  | .object members => 0 < left && readable_members number_fits (left - 1) members

def readable_elements (number_fits : List UInt8 → Bool) (left : Nat) : List Value → Bool
  | [] => true
  | value :: rest => readable number_fits left value && readable_elements number_fits left rest

def readable_members (number_fits : List UInt8 → Bool) (left : Nat) : List (List UInt8 × Value) → Bool
  | [] => true
  | (name, value) :: rest =>
    (string_contents name).isOk && readable number_fits left value && readable_members number_fits left rest

end

/-- Read a whole text as a value of no particular type. -/
def from_slice_any (number_fits : List UInt8 → Bool) (input : List UInt8) : Except DecodeError Value :=
  match parse input with
  | some value => if readable number_fits max_nesting value then .ok value else .error .malformed
  | none => .error .malformed

/-- One array more is too deep. -/
example :
    let nested (depth : Nat) := List.replicate depth 0x5b ++ List.replicate depth 0x5d
    (from_slice_any (fun _ => true) (nested 127)).isOk = true ∧
      (from_slice_any (fun _ => true) (nested 128)).isOk = false := by
  decide +kernel

/-- The string under a name, if the value is an object that has one there. The last
    member of a name is the one that counts. -/
def str_at (value : Value) (name : String) : Option String :=
  match value with
  | .object members =>
    match members.findRev? fun member => (string_contents member.1).toOption = some name with
    | some (_, .string raw) => (string_contents raw).toOption
    | _ => none
  | _ => none

/-- A record as an object with these names in this order. -/
def record (entries : List (String × Value)) : Value :=
  .object (entries.map fun entry => (escape entry.1, entry.2))

@[simp] theorem string_contents_escape (s : String) : string_contents (escape s) = .ok s := by
  simp [string_contents, unescape_escape]

@[simp] theorem as_string_of_string (s : String) : as_string (.of_string s) = .ok s :=
  string_contents_escape s

theorem foldl_decimal (digits : List Char) (start : Nat) (hdigits : ∀ c ∈ digits, c.isDigit) :
    (digits.map fun c => UInt8.ofNat c.toNat).foldl (fun n b => 10 * n + (b.toNat - 0x30)) start =
      Nat.ofDigitChars 10 digits start := by
  induction digits generalizing start with
  | nil => rfl
  | cons c rest ih =>
    have hbyte := (byte_of_digit (hdigits c List.mem_cons_self)).2
    rw [List.map_cons, List.foldl_cons, ih _ (fun d hd => hdigits d (List.mem_cons_of_mem c hd)),
      Nat.ofDigitChars_cons, hbyte]
    rfl

theorem of_decimal_decimal (n : Nat) : of_decimal (decimal n) = some n := by
  have hall : (decimal n).all is_digit = true :=
    List.all_eq_true.mpr fun b hb => isDigit_of_mem_decimal hb
  have hdigits : ∀ c ∈ Nat.toDigits 10 n, c.isDigit :=
    fun c hc => Nat.isDigit_of_mem_toDigits (by decide) (by decide) hc
  rw [of_decimal, if_pos hall, decimal, foldl_decimal _ _ hdigits, Nat.ofDigitChars_toDigits (by decide) (by decide)]

theorem as_unsigned_of_nat {bound n : Nat} (hbound : n < bound) :
    as_unsigned bound (.of_nat n) = .ok n := by
  simp [as_unsigned, Value.of_nat, of_decimal_decimal, hbound]

/-- Reading succeeds on a whole list if it does on every element. -/
theorem mapM_ok {A B : Type} {read : A → Except DecodeError B} {result : A → B} {values : List A}
    (hread : ∀ a ∈ values, read a = .ok (result a)) : values.mapM read = .ok (values.map result) := by
  induction values with
  | nil => rfl
  | cons a rest ih =>
    rw [List.mapM_cons, hread a List.mem_cons_self, ih fun b hb => hread b (List.mem_cons_of_mem a hb)]
    rfl

theorem as_list_array {A : Type} {read : Value → Except DecodeError A} {write : A → Value}
    (hread : ∀ a, read (write a) = .ok a) (values : List A) :
    as_list read (.array (values.map write)) = .ok values := by
  have hall : values.mapM (read ∘ write) = .ok (values.map id) := mapM_ok fun a _ => hread a
  rw [as_list, List.mapM_map, hall, List.map_id]

theorem named_members_escape (entries : List (String × Value)) :
    named_members (entries.map fun entry => (escape entry.1, entry.2)) = .ok entries := by
  have hone : ∀ entry ∈ entries, ((fun member : List UInt8 × Value => do
      let name ← string_contents member.1
      .ok (name, member.2)) ∘ fun entry => (escape entry.1, entry.2)) entry = .ok (id entry) := by
    intro entry _
    simp [bind, Except.bind]
  rw [named_members, List.mapM_map, mapM_ok hone, List.map_id]

theorem member_of_mem {entries : List (String × Value)} (hnodup : (entries.map Prod.fst).Nodup)
    {entry : String × Value} (hentry : entry ∈ entries) : member entries entry.1 = .ok entry.2 := by
  have hfilter : entries.filter (fun other => other.1 = entry.1) = [entry] := by
    induction entries with
    | nil => cases hentry
    | cons first rest ih =>
      rw [List.map_cons, List.nodup_cons] at hnodup
      obtain ⟨hfirst, hrest⟩ := hnodup
      rcases List.mem_cons.mp hentry with rfl | hmem
      · have hnone : rest.filter (fun other => other.1 = entry.1) = [] := by
          rw [List.filter_eq_nil_iff]
          intro other hother hname
          rw [decide_eq_true_eq] at hname
          exact hfirst (hname ▸ List.mem_map_of_mem hother)
        simp [hnone]
      · have hname : first.1 ≠ entry.1 := fun hname => hfirst (hname ▸ List.mem_map_of_mem hmem)
        simp [hname, ih hrest hmem]
  rw [member, hfilter]

/-- The fields of a record are read back in the order they were written in. -/
theorem fields_record {entries : List (String × Value)} (hnodup : (entries.map Prod.fst).Nodup) :
    fields (entries.map Prod.fst) (record entries) = .ok (entries.map Prod.snd) := by
  rw [record, fields, named_members_escape]
  change (entries.map Prod.fst).mapM (member entries) = _
  rw [List.mapM_map]
  exact mapM_ok fun entry hentry => member_of_mem hnodup hentry

/-- The first field of an object is its member of that name. -/
theorem member_of_fields {members : List (List UInt8 × Value)} {name : String} {names : List String} {value : Value}
    {rest : List Value} (hfields : fields (name :: names) (.object members) = .ok (value :: rest)) :
    ∃ named, named_members members = .ok named ∧ member named name = .ok value := by
  rw [fields] at hfields
  cases hnamed : named_members members with
  | error e => simp [hnamed, bind, Except.bind] at hfields
  | ok named =>
    refine ⟨named, rfl, ?_⟩
    simp only [hnamed, List.mapM_cons, bind, Except.bind, pure, Except.pure] at hfields
    split at hfields
    · cases hfields
    · rename_i first hfirst
      split at hfields
      · cases hfields
      · cases hfields
        exact hfirst

theorem written_record {entries : List (String × Value)} (hwritten : ∀ entry ∈ entries, entry.2.Written) :
    (record entries).Written := by
  rw [record, Value.Written]
  induction entries with
  | nil => trivial
  | cons entry rest ih =>
    exact ⟨stringToken_escape entry.1, hwritten entry List.mem_cons_self,
      ih fun other hother => hwritten other (List.mem_cons_of_mem entry hother)⟩

theorem written_array {elements : List Value} (hwritten : ∀ value ∈ elements, value.Written) :
    (Value.array elements).Written := by
  rw [Value.Written]
  induction elements with
  | nil => trivial
  | cons value rest ih =>
    exact ⟨hwritten value List.mem_cons_self,
      ih fun other hother => hwritten other (List.mem_cons_of_mem value hother)⟩

@[simp] theorem written_of_string (s : String) : (Value.of_string s).Written := stringToken_escape s

@[simp] theorem written_of_nat (n : Nat) : (Value.of_nat n).Written := ⟨n, rfl⟩

@[simp] theorem written_strings (strings : List String) : (Value.array (strings.map .of_string)).Written := by
  apply written_array
  intro value hvalue
  obtain ⟨s, _, rfl⟩ := List.mem_map.mp hvalue
  exact written_of_string s

theorem valid_escape (s : String) : text.Valid (escape s) := by
  have hhex : ∀ n < 16, (hex_digit n).toNat < 0x80 := by decide
  refine text.valid_flatMap fun c _ => ?_
  obtain ⟨e, plain, hchar, hshort, _⟩ | ⟨hcontrol, hchar⟩ | ⟨hchar, _⟩ := escape_char_cases c
  · have hascii : e.toNat < 0x80 := by
      by_contra hhigh
      have hne : ∀ other : UInt8, other.toNat < 0x80 → e ≠ other := by
        rintro other hother rfl
        exact hhigh hother
      simp [short_escape, hne 0x22 (by decide), hne 0x5c (by decide), hne 0x2f (by decide), hne 0x62 (by decide),
        hne 0x66 (by decide), hne 0x6e (by decide), hne 0x72 (by decide), hne 0x74 (by decide)] at hshort
    rw [hchar]
    exact (text.valid_ascii hascii).cons (by decide)
  · rw [hchar]
    have hhigh := hhex (c.toNat / 16) (by omega)
    have hlow := hhex (c.toNat % 16) (by omega)
    have hdigits := (text.valid_ascii hlow).cons hhigh
    exact (((hdigits.cons (by decide)).cons (by decide)).cons (by decide)).cons (by decide)
  · rw [hchar]
    exact text.valid_encodeChar c

@[simp] theorem valid_of_string (s : String) : text.Valid (Value.of_string s).render :=
  ((valid_escape s).append (text.valid_ascii (by decide))).cons (by decide)

@[simp] theorem valid_of_nat (n : Nat) : text.Valid (Value.of_nat n).render := by
  have hdigits : ∀ b ∈ decimal n, text.Valid [b] := by
    intro b hb
    have hdigit := isDigit_of_mem_decimal hb
    simp only [is_digit, Bool.and_eq_true, decide_eq_true_eq, UInt8.le_iff_toNat_le] at hdigit
    have hhigh : b.toNat ≤ 0x39 := hdigit.2
    exact text.valid_ascii (by omega)
  have hvalid := text.valid_flatMap hdigits
  rwa [List.flatMap_singleton'] at hvalid

/-- A record of texts is a text. -/
theorem valid_record {entries : List (String × Value)} (hvalid : ∀ entry ∈ entries, text.Valid entry.2.render) :
    text.Valid (record entries).render := by
  have hmembers : ∀ rest ⊆ entries,
      text.Valid (Value.render_members (rest.map fun entry => (escape entry.1, entry.2))) := by
    intro rest hrest
    induction rest with
    | nil => exact text.valid_ascii (by decide)
    | cons entry rest ih =>
      obtain ⟨hmem, hothers⟩ := List.cons_subset.mp hrest
      have hvalue := (hvalid entry hmem).append (ih hothers)
      have hname := (valid_escape entry.1).append ((hvalue.cons (b := 0x3a) (by decide)).cons (b := 0x22) (by decide))
      simpa [Value.render_members] using (hname.cons (b := 0x22) (by decide)).cons (b := 0x2c) (by decide)
  cases entries with
  | nil => exact (text.valid_ascii (by decide)).cons (by decide)
  | cons entry rest =>
    have hvalue := (hvalid entry List.mem_cons_self).append (hmembers rest (List.subset_cons_self entry rest))
    have hname := (valid_escape entry.1).append ((hvalue.cons (b := 0x3a) (by decide)).cons (b := 0x22) (by decide))
    simpa [record, Value.render] using (hname.cons (b := 0x22) (by decide)).cons (b := 0x7b) (by decide)

/-- A list of texts is a text. -/
theorem valid_array {elements : List Value} (hvalid : ∀ value ∈ elements, text.Valid value.render) :
    text.Valid (Value.array elements).render := by
  have helements : ∀ rest ⊆ elements, text.Valid (Value.render_elements rest) := by
    intro rest hrest
    induction rest with
    | nil => exact text.valid_ascii (by decide)
    | cons value rest ih =>
      obtain ⟨hmem, hothers⟩ := List.cons_subset.mp hrest
      exact ((hvalid value hmem).append (ih hothers)).cons (by decide)
  cases elements with
  | nil => exact (text.valid_ascii (by decide)).cons (by decide)
  | cons value rest =>
    exact ((hvalid value List.mem_cons_self).append (helements rest (List.subset_cons_self value rest))).cons
      (by decide)

@[simp] theorem valid_strings (strings : List String) :
    text.Valid (Value.array (strings.map .of_string)).render := by
  apply valid_array
  intro value hvalue
  obtain ⟨s, _, rfl⟩ := List.mem_map.mp hvalue
  exact valid_of_string s

theorem from_slice_render {A : Type} {read : Value → Except DecodeError A} {value : Value}
    (hwritten : value.Written) : from_slice read value.render = read value := by
  rw [from_slice, parse_render hwritten]

theorem from_slice_any_render {number_fits : List UInt8 → Bool} {value : Value} (hwritten : value.Written)
    (hreadable : readable number_fits max_nesting value = true) : from_slice_any number_fits value.render = .ok value := by
  rw [from_slice_any, parse_render hwritten]
  exact if_pos hreadable

theorem named_members_cons (first : List UInt8 × Value) (rest : List (List UInt8 × Value)) :
    named_members (first :: rest) = (do
      let name ← string_contents first.1
      let named ← named_members rest
      .ok ((name, first.2) :: named)) := by
  rw [named_members, List.mapM_cons]
  cases string_contents first.1 <;> rfl

/-- Naming members keeps their values in place. -/
theorem named_members_values {members : List (List UInt8 × Value)} {named : List (String × Value)}
    (hnamed : named_members members = .ok named) (name : String) :
    (members.filter fun member => (string_contents member.1).toOption = some name).map Prod.snd =
      (named.filter fun entry => entry.1 = name).map Prod.snd := by
  induction members generalizing named with
  | nil =>
    cases hnamed
    rfl
  | cons first rest ih =>
    rw [named_members_cons] at hnamed
    cases hfirst : string_contents first.1 with
    | error e => simp [hfirst, bind, Except.bind] at hnamed
    | ok contents =>
      cases hrest : named_members rest with
      | error e => simp [hfirst, hrest, bind, Except.bind] at hnamed
      | ok others =>
        simp only [hfirst, hrest, bind, Except.bind, Except.ok.injEq] at hnamed
        subst hnamed
        have hsame := ih hrest
        have hread : (string_contents first.1).toOption = some contents := by
          rw [hfirst]
          rfl
        by_cases hname : contents = name
        · simp [hread, hname, hsame]
        · simp [hread, hname, hsame]

/-- The string of the one member of a name is the one that is found there. -/
theorem str_at_of_member {members : List (List UInt8 × Value)} {named : List (String × Value)}
    (hnamed : named_members members = .ok named) {name s : String} {value : Value}
    (hmember : member named name = .ok value) (hstring : as_string value = .ok s) :
    str_at (.object members) name = some s := by
  have hvalues := named_members_values hnamed name
  rw [member] at hmember
  split at hmember
  · cases hmember
  · rename_i entry hone
    cases hmember
    rw [hone, List.map_cons, List.map_nil, List.map_eq_singleton_iff] at hvalues
    obtain ⟨⟨raw, found⟩, hfound, hsame⟩ := hvalues
    have hrev : members.findRev? (fun member => (string_contents member.1).toOption = some name) = some (raw, found) := by
      rw [List.findRev?_eq_find?_reverse, ← List.head?_filter, List.filter_reverse, hfound]
      rfl
    rw [← hsame] at hstring
    cases found with
    | string contents =>
      rw [as_string] at hstring
      simp only [str_at, hrev, hstring]
      rfl
    | _ => cases hstring
  · cases hmember

end json
