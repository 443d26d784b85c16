import Usahp.Capture.Tables

/-!
The keyboard table of the event tap on macOS. It is built from a table of names
of its own, with virtual keycodes for keys, and it skips a name that the table
does not have. Both tables of names are shown to know the same names and to
take the same ones for one key, so the two keyboard tables are the same but for
the names of the keys.
-/

namespace Usahp.Capture

open Usahp.Library Usahp.Broker

def rawKeycodes : List (String × UInt16) :=
  [("space", 49), ("return", 36), ("enter", 36), ("escape", 53), ("esc", 53), ("tab", 48),
    ("up", 126), ("uparrow", 126), ("down", 125), ("downarrow", 125), ("left", 123),
    ("leftarrow", 123), ("right", 124), ("rightarrow", 124), ("a", 0), ("b", 11), ("c", 8),
    ("d", 2), ("e", 14), ("f", 3), ("g", 5), ("h", 4), ("i", 34), ("j", 38), ("k", 40),
    ("l", 37), ("m", 46), ("n", 45), ("o", 31), ("p", 35), ("q", 12), ("r", 15), ("s", 1),
    ("t", 17), ("u", 32), ("v", 9), ("w", 13), ("x", 7), ("y", 16), ("z", 6)]

/-- The map collected from the raw list, where a later entry would replace an
earlier one. -/
def nameToKeycode : String → Option UInt16 :=
  rawKeycodes.foldl (fun names entry => Function.update names entry.1 (some entry.2))
    fun _ => none

/-- The table of `spawn`. One that is empty is not installed and captures nothing
either. -/
def tapTable (mappings : List Mapping) : KeyTable UInt16 :=
  (mappings.filter (·.input = .keyboard)).foldl
    (fun byKey mapping =>
      match nameToKeycode (toAsciiLowercase mapping.code) with
      | some keycode => byKey.push keycode mapping.id
      | none => byKey)
    fun _ => none

/-- The virtual keycode of a key that has a name. -/
def keycode : Key → UInt16
  | .space => 49
  | .return_ => 36
  | .escape => 53
  | .tab => 48
  | .upArrow => 126
  | .downArrow => 125
  | .leftArrow => 123
  | .rightArrow => 124
  | .keyA => 0
  | .keyB => 11
  | .keyC => 8
  | .keyD => 2
  | .keyE => 14
  | .keyF => 3
  | .keyG => 5
  | .keyH => 4
  | .keyI => 34
  | .keyJ => 38
  | .keyK => 40
  | .keyL => 37
  | .keyM => 46
  | .keyN => 45
  | .keyO => 31
  | .keyP => 35
  | .keyQ => 12
  | .keyR => 15
  | .keyS => 1
  | .keyT => 17
  | .keyU => 32
  | .keyV => 9
  | .keyW => 13
  | .keyX => 7
  | .keyY => 16
  | .keyZ => 6
  | .other _ => 127

/-- The key that has a virtual keycode, for the codes in the raw list. -/
def keyOfKeycode (code : UInt16) : Option Key :=
  [Key.space, .return_, .escape, .tab, .upArrow, .downArrow, .leftArrow, .rightArrow, .keyA,
    .keyB, .keyC, .keyD, .keyE, .keyF, .keyG, .keyH, .keyI, .keyJ, .keyK, .keyL, .keyM, .keyN,
    .keyO, .keyP, .keyQ, .keyR, .keyS, .keyT, .keyU, .keyV, .keyW, .keyX, .keyY, .keyZ].find?
      (keycode · = code)

theorem nameToKeycode_of_notMem {name : String} (h : name ∉ rawKeycodes.map Prod.fst) :
    nameToKeycode name = none := by
  unfold nameToKeycode
  generalize rawKeycodes = entries at h ⊢
  induction entries using List.reverseRecOn with
  | nil => rfl
  | append_singleton entries entry ih =>
      rw [List.map_append, List.mem_append, not_or] at h
      rw [List.foldl_concat, Function.update_of_ne (by simpa using h.2)]
      exact ih h.1

/-- The two tables of names agree on every code. -/
theorem nameToKeycode_eq (code : String) :
    nameToKeycode (toAsciiLowercase code) = (parseKey code).toOption.map keycode := by
  unfold parseKey
  generalize toAsciiLowercase code = name
  split
  case h_41 =>
    apply nameToKeycode_of_notMem
    simp only [rawKeycodes, List.map_cons, List.map_nil, List.mem_cons, List.not_mem_nil, or_false,
      not_or]
    and_intros <;> assumption
  all_goals rfl

/-- Keys that have names have different keycodes. -/
theorem keyOfKeycode_keycode {code : String} {key : Key} (h : parseKey code = .ok key) :
    keyOfKeycode (keycode key) = some key := by
  unfold parseKey at h
  generalize toAsciiLowercase code = name at h
  split at h
  case h_41 => cases h
  all_goals
    cases h
    rfl

/-- Two codes that both tables accept are one key for both or for neither. -/
theorem nameToKeycode_eq_iff {first second : String} {firstKey secondKey : Key}
    (hfirst : parseKey first = .ok firstKey) (hsecond : parseKey second = .ok secondKey) :
    nameToKeycode (toAsciiLowercase first) = nameToKeycode (toAsciiLowercase second) ↔
      firstKey = secondKey := by
  rw [nameToKeycode_eq, nameToKeycode_eq, hfirst, hsecond]
  change some (keycode firstKey) = some (keycode secondKey) ↔ _
  constructor
  · intro hsame
    have hkey := keyOfKeycode_keycode hfirst
    rw [Option.some.inj hsame, keyOfKeycode_keycode hsecond] at hkey
    exact (Option.some.inj hkey).symm
  · rintro rfl
    rfl

/-- The loop of the tap, which skips what it does not know, renames the keys of the
grab. -/
theorem tapTable_eq (mappings : List Mapping) :
    tapTable mappings = Buckets.collect (Buckets.entriesOf
      (fun mapping => (keyOf mapping).map keycode) (·.id)
      (mappings.filter (·.input = .keyboard))) := by
  apply Buckets.foldl_push
  · intro byKey mapping hnone
    rw [nameToKeycode_eq]
    simp only [keyOf] at hnone
    simp only [hnone]
  · intro byKey mapping keycode hsome
    rw [nameToKeycode_eq]
    simp only [keyOf] at hsome
    simp only [hsome]
    rfl

theorem keycode_injOn (mappings : List Mapping) :
    Set.InjOn keycode {key | ∃ mapping ∈ mappings, keyOf mapping = some key} := by
  rintro first ⟨mapping, -, hfirst⟩ second ⟨other, -, hsecond⟩ hsame
  rw [keyOf_eq_some_iff] at hfirst hsecond
  apply (nameToKeycode_eq_iff hfirst hsecond).mp
  rw [nameToKeycode_eq, nameToKeycode_eq, hfirst, hsecond]
  exact congrArg some hsame

/-- The two tables of names accept the same codes, in any case, and take the same
ones for one key. For an accepted list of mappings the tables of the grab and of
the tap are the same up to a renaming of the keys, one to one: every keyboard
mapping is in both, and the slots have the same ids in the same order. -/
theorem tap_matches_grab (platform : Platform) (mappings : List Mapping)
    (hvalid : validate platform mappings = .ok ()) :
    (∀ code, (nameToKeycode (toAsciiLowercase code)).isSome = (parseKey code).isOk) ∧
    (∀ first second firstKey secondKey,
      parseKey first = .ok firstKey → parseKey second = .ok secondKey →
        (nameToKeycode (toAsciiLowercase first) = nameToKeycode (toAsciiLowercase second) ↔
          firstKey = secondKey)) ∧
    ∃ byKey, keyboardTable mappings = .ok byKey ∧
      Set.BijOn keycode {key | (byKey key).isSome}
        {keycode | (tapTable mappings keycode).isSome} ∧
      (∀ key, (byKey key).isSome → tapTable mappings (keycode key) = byKey key) ∧
      ∀ mapping ∈ mappings, mapping.input = .keyboard → ∃ key ids,
        parseKey mapping.code = .ok key ∧
        nameToKeycode (toAsciiLowercase mapping.code) = some (keycode key) ∧
        byKey key = some ids ∧ tapTable mappings (keycode key) = some ids ∧ mapping.id ∈ ids := by
  have hgrab := keyboardTable_ok fun mapping hmem => parseKey_of_validate hvalid hmem
  obtain ⟨hbij, hsame⟩ := Buckets.collect_rename (·.id) _
    (keycode_injOn (mappings.filter (·.input = .keyboard)))
  rw [← tapTable_eq] at hbij hsame
  refine ⟨?_, fun first second firstKey secondKey => nameToKeycode_eq_iff, _, hgrab, hbij,
    hsame, ?_⟩
  · intro code
    rw [nameToKeycode_eq]
    cases parseKey code with
    | error error => rfl
    | ok key => rfl
  · intro mapping hmem hkeyboard
    obtain ⟨key, hkey⟩ := parseKey_of_validate hvalid hmem hkeyboard
    have hlisted : mapping ∈ mappings.filter (·.input = .keyboard) :=
      List.mem_filter.mpr ⟨hmem, by simpa using hkeyboard⟩
    have hown : keyOf mapping = some key := (keyOf_eq_some_iff mapping key).mpr hkey
    have hsome := (Buckets.collect_isSome_iff keyOf (·.id) _ key).mpr ⟨mapping, hlisted, hown⟩
    obtain ⟨ids, hids⟩ := Option.isSome_iff_exists.mp hsome
    refine ⟨key, ids, hkey, ?_, hids, (hsame key hsome).trans hids, ?_⟩
    · rw [nameToKeycode_eq, hkey]
      rfl
    · have hbucket := Buckets.collect_getD (Buckets.entriesOf keyOf (·.id)
        (mappings.filter (·.input = .keyboard))) key
      rw [hids, Buckets.bucket_entriesOf] at hbucket
      change ids = _ at hbucket
      rw [hbucket]
      exact List.mem_map_of_mem (List.mem_filter.mpr ⟨hlisted, by simpa using hown⟩)

/-- Two spellings of one key, and another key. -/
def spelledMappings : List Mapping :=
  [⟨"enter", "primary", .keyboard, "Enter", none⟩,
    ⟨"space", "secondary", .keyboard, "SPACE", none⟩,
    ⟨"again", "primary", .keyboard, "return", none⟩]

theorem spelledMappings_match : ∃ byKey, keyboardTable spelledMappings = .ok byKey ∧
    byKey .return_ = some ["enter", "again"] ∧
      tapTable spelledMappings 36 = some ["enter", "again"] := by
  obtain ⟨_, _, byKey, hgrab, _, hsame, _⟩ :=
    tap_matches_grab .linux spelledMappings (by decide +kernel)
  have hgrabbed : (keyboardTable spelledMappings).map (fun byKey => byKey .return_) =
      .ok (some ["enter", "again"]) := by decide +kernel
  rw [hgrab] at hgrabbed
  have hslot : byKey .return_ = some ["enter", "again"] := Except.ok.inj hgrabbed
  refine ⟨byKey, hgrab, hslot, ?_⟩
  rw [← hslot]
  exact hsame .return_ (by rw [hslot]; rfl)

end Usahp.Capture
