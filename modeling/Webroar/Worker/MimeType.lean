import Mathlib.Logic.Function.Basic
import Webroar.Head.Request

/-! # The type of a static file

The static worker keeps a dictionary of file types in buckets, one for each first character of an
extension that is a letter or a digit. The extension of a file is what is behind the last dot of its
path; it is copied to a buffer, in lower case, and looked up there.
-/

namespace StaticServer

/-- A line of `mime_type.yml`. Key and value fit into the fields of an entry. -/
structure Line where
  key : Text
  value : Text
  shortKey : key.1.length < 10
  shortValue : value.1.length < 50

/-- `static_file_t`. -/
structure StaticFile where
  ext : Text
  mimeType : Text
  expires : Int
deriving DecidableEq

/-- What the dictionary says of a type, but for the time it expires after. -/
def StaticFile.type (file : StaticFile) : Text × Text := (file.ext, file.mimeType)

/-- `s->map`: the buckets, and the entry at `MAP_SIZE`. -/
structure Dictionary where
  map : Nat → List StaticFile
  default : StaticFile

/-- `wr_tolower`. -/
def wrTolower (c : UInt8) : UInt8 := if 65 ≤ c ∧ c ≤ 90 then c ||| 0x20 else c

/-- The bucket of an extension; none for the index `MAP_SIZE`. -/
def index (ext : List UInt8) : Option Nat :=
  match ext with
  | [] => none
  | c :: _ =>
      if 48 ≤ c ∧ c ≤ 57 then some (c.toNat - 48)
      else if 97 ≤ c ∧ c ≤ 122 then some (c.toNat - 97 + 10)
      else none

/-- The extension and the type of the entry at `MAP_SIZE`. -/
def plainText : Text × Text :=
  (⟨ascii "txt", by decide +kernel⟩, ⟨ascii "text/plain", by decide +kernel⟩)

/-- One turn of the loop of `create_dictionary`: an entry goes to the front of its bucket, or is
dropped. -/
def addLine (expires : Int) (dict : Dictionary) (line : Line) : Dictionary :=
  match index line.key.1 with
  | none => dict
  | some i => { dict with
      map := Function.update dict.map i (⟨line.key, line.value, expires⟩ :: dict.map i) }

/-- `create_dictionary`. -/
def createDictionary (lines : List Line) (expires : Int) : Dictionary :=
  lines.foldl (addLine expires) ⟨fun _ => [], ⟨plainText.1, plainText.2, expires⟩⟩

/-- `STR_SIZE64`. -/
def strSize64 : Nat := 64

/-- The new time goes to the first entry of the extension. -/
def setFirst (ext : List UInt8) (expires : Int) : List StaticFile → List StaticFile
  | [] => []
  | e :: rest =>
      if e.ext.1 = ext then { e with expires := expires } :: rest
      else e :: setFirst ext expires rest

/-- `set_expires_time`; nothing when the copy is overrun. -/
def setExpiresTime (dict : Dictionary) (ext : Text) (expires : Int) : Option Dictionary :=
  if strSize64 ≤ ext.1.length then none
  else
    let tmpExt := ext.1.map wrTolower
    match index tmpExt with
    | none => some dict
    | some i => some { dict with
        map := Function.update dict.map i (setFirst tmpExt expires (dict.map i)) }

/-- The dictionary of `static_module_init`, with the types `set_expires_by_type` finds. -/
def moduleInit (lines : List Line) (expires : Int) (byType : List (Text × Int)) :
    Option Dictionary :=
  byType.foldlM (fun dict item => setExpiresTime dict item.1 item.2)
    (createDictionary lines expires)

/-- The loop of `get_file_ext`, from behind the byte at `len`. -/
def fileExtFrom (path : List UInt8) : Nat → Option (List UInt8)
  | 0 => none
  | len + 1 => if path[len]? = some 46 then some (path.drop (len + 1)) else fileExtFrom path len

/-- `get_file_ext`. -/
def getFileExt (path : List UInt8) : Option (List UInt8) := fileExtFrom path path.length

/-- `get_mime_type`; nothing when there is no extension to read, or the copy is overrun. -/
def getMimeType (dict : Dictionary) (path : List UInt8) : Option StaticFile :=
  match getFileExt path with
  | none => none
  | some ext =>
      if strSize64 ≤ ext.length then none
      else
        let tmpExt := ext.map wrTolower
        match index tmpExt with
        | none => some dict.default
        | some i => some (((dict.map i).find? (·.ext.1 = tmpExt)).getD dict.default)

/-! ### The extension -/

/-- The text behind the last dot of a path. -/
def LastDot (path ext : List UInt8) : Prop :=
  ∃ front, path = front ++ 46 :: ext ∧ (46 : UInt8) ∉ ext

theorem getFileExt_eq {path ext : List UInt8} (last : LastDot path ext) :
    getFileExt path = some ext := by
  obtain ⟨front, rfl, absent⟩ := last
  have scan : ∀ count ≤ ext.length,
      fileExtFrom (front ++ 46 :: ext) (front.length + 1 + count) = some ext := by
    intro count few
    induction count with
    | zero =>
        rw [Nat.add_zero, fileExtFrom, if_pos (by simp)]
        simp
    | succ count ih =>
        rw [← Nat.add_assoc, fileExtFrom, List.getElem?_append_right (by omega), Nat.add_assoc,
          Nat.add_sub_cancel_left, Nat.add_comm, List.getElem?_cons_succ, if_neg]
        · rw [Nat.add_comm count 1, ← Nat.add_assoc]
          exact ih (by omega)
        · exact fun found => absent (List.mem_of_getElem? found)
  have whole := scan ext.length (Nat.le_refl _)
  have length : (front ++ 46 :: ext).length = front.length + 1 + ext.length := by
    rw [List.length_append, List.length_cons]
    omega
  rw [getFileExt, length]
  exact whole

theorem getFileExt_eq_none {path : List UInt8} (absent : (46 : UInt8) ∉ path) :
    getFileExt path = none := by
  have scan : ∀ len, fileExtFrom path len = none := by
    intro len
    induction len with
    | zero => rfl
    | succ len ih =>
        rw [fileExtFrom, if_neg, ih]
        exact fun found => absent (List.mem_of_getElem? found)
  exact scan _

theorem exists_lastDot {path : List UInt8} (present : (46 : UInt8) ∈ path) :
    ∃ ext, LastDot path ext := by
  obtain ⟨back, front, spelled, absent⟩ :=
    List.eq_append_cons_of_mem (List.mem_reverse.mpr present)
  refine ⟨back.reverse, front.reverse, ?_, fun member => absent (List.mem_reverse.mp member)⟩
  have turned := congrArg List.reverse spelled
  rw [List.reverse_reverse] at turned
  rw [turned]
  simp

theorem LastDot.mem {path ext : List UInt8} (last : LastDot path ext) : (46 : UInt8) ∈ path := by
  obtain ⟨front, rfl, -⟩ := last
  exact List.mem_append_right _ List.mem_cons_self

theorem LastDot.unique {path first second : List UInt8} (last : LastDot path first)
    (also : LastDot path second) : first = second :=
  Option.some.inj ((getFileExt_eq last).symm.trans (getFileExt_eq also))

/-! ### The dictionary -/

/-- A dictionary has the types of the lines, each in its bucket, and plain text at the end. -/
structure Holds (lines : List Line) (dict : Dictionary) : Prop where
  types : ∀ i type, type ∈ (dict.map i).map StaticFile.type ↔
    ∃ line ∈ lines, index line.key.1 = some i ∧ type = (line.key, line.value)
  default : dict.default.type = plainText

theorem holds_createDictionary (lines : List Line) (expires : Int) :
    Holds lines (createDictionary lines expires) := by
  have grow : ∀ (before after : List Line) (dict : Dictionary), Holds before dict →
      Holds (before ++ after) (after.foldl (addLine expires) dict) := by
    intro before after
    induction after generalizing before with
    | nil =>
        intro dict holds
        rw [List.append_nil]
        exact holds
    | cons line after ih =>
        intro dict holds
        rw [List.foldl_cons, ← List.singleton_append, ← List.append_assoc]
        refine ih _ _ ⟨fun i type => ?_, ?_⟩
        · have before := holds.types i type
          unfold addLine
          cases place : index line.key.1 with
          | none =>
              simp only [List.mem_append, List.mem_singleton]
              rw [before]
              constructor
              · rintro ⟨other, member, found⟩
                exact ⟨other, Or.inl member, found⟩
              · rintro ⟨other, member | rfl, found, same⟩
                · exact ⟨other, member, found, same⟩
                · rw [place] at found
                  cases found
          | some bucket =>
              simp only [List.mem_append, List.mem_singleton]
              by_cases here : i = bucket
              · subst here
                rw [Function.update_self, List.map_cons, List.mem_cons, before]
                constructor
                · rintro (rfl | ⟨other, member, found⟩)
                  · exact ⟨line, Or.inr rfl, place, rfl⟩
                  · exact ⟨other, Or.inl member, found⟩
                · rintro ⟨other, member | rfl, found, rfl⟩
                  · exact Or.inr ⟨other, member, found, rfl⟩
                  · exact Or.inl rfl
              · rw [Function.update_of_ne here, before]
                constructor
                · rintro ⟨other, member, found⟩
                  exact ⟨other, Or.inl member, found⟩
                · rintro ⟨other, member | rfl, found, same⟩
                  · exact ⟨other, member, found, same⟩
                  · exact absurd (Option.some.inj (found.symm.trans place)) here
        · unfold addLine
          cases index line.key.1 with
          | none => exact holds.default
          | some bucket => exact holds.default
  refine grow [] lines _ ⟨fun i type => ?_, rfl⟩
  exact iff_of_false List.not_mem_nil nofun

theorem type_setFirst (ext : List UInt8) (expires : Int) (files : List StaticFile) :
    (setFirst ext expires files).map StaticFile.type = files.map StaticFile.type := by
  induction files with
  | nil => rfl
  | cons file rest ih =>
      unfold setFirst
      split_ifs
      · rfl
      · rw [List.map_cons, List.map_cons, ih]

theorem Holds.setExpiresTime {lines : List Line} {dict next : Dictionary} (holds : Holds lines dict)
    {ext : Text} {expires : Int} (set : setExpiresTime dict ext expires = some next) :
    Holds lines next := by
  unfold StaticServer.setExpiresTime at set
  dsimp only at set
  split_ifs at set
  cases place : index (ext.1.map wrTolower) with
  | none =>
      rw [place] at set
      cases set
      exact holds
  | some bucket =>
      rw [place] at set
      cases set
      refine ⟨fun i type => ?_, holds.default⟩
      rw [← holds.types i type]
      by_cases here : i = bucket
      · subst here
        dsimp only
        rw [Function.update_self, type_setFirst]
      · dsimp only
        rw [Function.update_of_ne here]

/-- The dictionary of the worker has the types of the lines. -/
theorem holds_moduleInit {lines : List Line} {expires : Int} {byType : List (Text × Int)}
    {dict : Dictionary} (started : moduleInit lines expires byType = some dict) :
    Holds lines dict := by
  have keeps : ∀ (items : List (Text × Int)) (dict next : Dictionary), Holds lines dict →
      items.foldlM (fun dict item => setExpiresTime dict item.1 item.2) dict = some next →
      Holds lines next := by
    intro items
    induction items with
    | nil =>
        rintro dict _ holds ⟨⟩
        exact holds
    | cons item items ih =>
        intro dict next holds all
        rw [List.foldlM_cons] at all
        obtain ⟨between, first, later⟩ := Option.bind_eq_some_iff.mp all
        exact ih between next (holds.setExpiresTime first) later
  exact keeps byType _ dict (holds_createDictionary lines expires) started

/-! ### The lookup -/

/-- The extension of a path: the text behind the last dot of its last component. -/
def HasExt (path ext : List UInt8) : Prop := LastDot path ext ∧ (47 : UInt8) ∉ ext

/-- The lookup finds the line with the extension in lower case, or plain text if there is none. -/
def TypeRight (lines : List Line) (path : List UInt8) (result : Option StaticFile) : Prop :=
  ∃ file, result = some file ∧
    ((∃ ext, HasExt path ext ∧ ∃ line ∈ lines, line.key.1 = ext.map wrTolower ∧
        file.type = (line.key, line.value)) ∨
      (∀ ext, HasExt path ext → ∀ line ∈ lines, line.key.1 ≠ ext.map wrTolower) ∧
        file.type = plainText)

/-- There is a dot, what follows the last one is shorter than the copy, and the lines with it as the
key are in a bucket just when it is an extension. -/
def PathFits (lines : List Line) (path : List UInt8) : Prop :=
  ∃ ext, LastDot path ext ∧ ext.length < strSize64 ∧
    ∀ line ∈ lines, line.key.1 = ext.map wrTolower →
      ((index line.key.1).isSome = true ↔ (47 : UInt8) ∉ ext)

theorem getMimeType_eq (dict : Dictionary) {path ext : List UInt8} (last : LastDot path ext)
    (short : ext.length < strSize64) :
    getMimeType dict path = some (((index (ext.map wrTolower)).bind fun i =>
      (dict.map i).find? (·.ext.1 = ext.map wrTolower)).getD dict.default) := by
  rw [getMimeType, getFileExt_eq last]
  dsimp only
  rw [if_neg (Nat.not_le_of_lt short)]
  cases index (ext.map wrTolower) with
  | none => rfl
  | some i => rfl

/-- What is found in the buckets is a line with the key, and all lines of the bucket are looked at. -/
theorem Holds.find {lines : List Line} {dict : Dictionary} (holds : Holds lines dict)
    (key : List UInt8) :
    match (index key).bind fun i => (dict.map i).find? (·.ext.1 = key) with
    | some file => ∃ line ∈ lines, line.key.1 = key ∧ (index line.key.1).isSome = true ∧
        file.type = (line.key, line.value)
    | none => ∀ line ∈ lines, line.key.1 = key → (index line.key.1).isSome = false := by
  cases place : index key with
  | none =>
      intro line _ same
      rw [same, place]
      rfl
  | some i =>
      rw [Option.bind_some]
      cases found : (dict.map i).find? (·.ext.1 = key) with
      | some file =>
          have right : file.ext.1 = key := by simpa using List.find?_some found
          obtain ⟨line, member, bucket, same⟩ := (holds.types i file.type).mp
            (List.mem_map_of_mem (List.mem_of_find?_eq_some found))
          have named : file.ext = line.key := congrArg Prod.fst same
          exact ⟨line, member, by rw [← named, right], by rw [bucket]; rfl, same⟩
      | none =>
          intro line member same
          have bucket : index line.key.1 = some i := by rw [same, place]
          obtain ⟨file, inside, type⟩ := List.mem_map.mp
            ((holds.types i _).mpr ⟨line, member, bucket, rfl⟩)
          have named : file.ext = line.key := congrArg Prod.fst type
          have other := List.find?_eq_none.mp found file inside
          rw [named, same] at other
          exact absurd (decide_eq_true rfl) other

theorem index_plainText : (index plainText.1.1).isSome = true ∧ (47 : UInt8) ∉ plainText.1.1 := by
  decide +kernel

theorem wrTolower_eq_slash {c : UInt8} (same : wrTolower c = 47) : c = 47 := by
  have all : ∀ n < 256, wrTolower (UInt8.ofNat n) = 47 → UInt8.ofNat n = 47 := by decide +kernel
  have right := all c.toNat c.toNat_lt
  rw [UInt8.ofNat_toNat] at right
  exact right same

theorem slash_mem_map {ext : List UInt8} :
    (47 : UInt8) ∈ ext.map wrTolower ↔ (47 : UInt8) ∈ ext := by
  constructor
  · intro member
    obtain ⟨c, inside, same⟩ := List.mem_map.mp member
    exact wrTolower_eq_slash same ▸ inside
  · intro member
    exact List.mem_map.mpr ⟨47, member, by decide⟩

/-- The lookup of the worker is right for exactly the paths that fit. -/
theorem mime_type_iff {lines : List Line} {expires : Int} {byType : List (Text × Int)}
    {dict : Dictionary} (started : moduleInit lines expires byType = some dict) (path : Text) :
    TypeRight lines path.1 (getMimeType dict path.1) ↔ PathFits lines path.1 := by
  have holds := holds_moduleInit started
  by_cases present : (46 : UInt8) ∈ path.1
  · obtain ⟨ext, last⟩ := exists_lastDot present
    by_cases short : ext.length < strSize64
    · have spec := holds.find (ext.map wrTolower)
      have fits : PathFits lines path.1 ↔ ∀ line ∈ lines, line.key.1 = ext.map wrTolower →
          ((index line.key.1).isSome = true ↔ (47 : UInt8) ∉ ext) := by
        constructor
        · rintro ⟨other, also, -, all⟩
          rw [last.unique also]
          exact all
        · exact fun all => ⟨ext, last, short, all⟩
      rw [getMimeType_eq dict last short, fits]
      generalize ((index (ext.map wrTolower)).bind fun i =>
        (dict.map i).find? (·.ext.1 = ext.map wrTolower)) = result at spec
      cases result with
      | some file =>
          obtain ⟨line, member, named, bucket, type⟩ := spec
          have extension : (∀ line ∈ lines, line.key.1 = ext.map wrTolower →
              ((index line.key.1).isSome = true ↔ (47 : UInt8) ∉ ext)) ↔ (47 : UInt8) ∉ ext := by
            constructor
            · exact fun all => (all line member named).mp bucket
            · intro absent other _ same
              rw [same, ← named]
              exact iff_of_true bucket absent
          rw [Option.getD_some, extension]
          constructor
          · rintro ⟨_, ⟨⟩, ⟨other, has, -⟩ | ⟨-, plain⟩⟩
            · exact last.unique has.1 ▸ has.2
            · have key : line.key = plainText.1 := congrArg Prod.fst (type.symm.trans plain)
              rw [← slash_mem_map, ← named, key]
              exact index_plainText.2
          · intro absent
            exact ⟨file, rfl, Or.inl ⟨ext, ⟨last, absent⟩, line, member, named, type⟩⟩
      | none =>
          rw [Option.getD_none]
          constructor
          · rintro ⟨_, ⟨⟩, ⟨other, has, line, member, named, type⟩ | ⟨missing, -⟩⟩
            · rw [← last.unique has.1] at named
              have key : line.key = plainText.1 :=
                congrArg Prod.fst (type.symm.trans holds.default)
              have dropped := spec line member named
              rw [key, index_plainText.1] at dropped
              cases dropped
            · intro line member named
              rw [spec line member named]
              refine iff_of_false Bool.false_ne_true fun absent => ?_
              exact missing ext ⟨last, absent⟩ line member named
          · intro all
            refine ⟨_, rfl, Or.inr ⟨fun other has line member named => ?_, holds.default⟩⟩
            rw [← last.unique has.1] at named has
            have bucket := (all line member named).mpr has.2
            rw [spec line member named] at bucket
            cases bucket
    · rw [getMimeType, getFileExt_eq last]
      dsimp only
      rw [if_pos (Nat.le_of_not_lt short)]
      refine iff_of_false nofun ?_
      rintro ⟨other, also, fits, -⟩
      exact short (last.unique also ▸ fits)
  · rw [getMimeType, getFileExt_eq_none present]
    refine iff_of_false nofun ?_
    rintro ⟨ext, last, -⟩
    exact present last.mem

/-- A line for style sheets. -/
def styleSheet : Line :=
  ⟨⟨ascii "css", by decide +kernel⟩, ⟨ascii "text/css", by decide +kernel⟩, by decide +kernel,
    by decide +kernel⟩

theorem mime_type_sample :
    TypeRight [styleSheet] (ascii "/srv/public/Main.CSS")
        (getMimeType (createDictionary [styleSheet] 0) (ascii "/srv/public/Main.CSS")) ↔
      PathFits [styleSheet] (ascii "/srv/public/Main.CSS") :=
  @mime_type_iff [styleSheet] 0 [] _ rfl
    ⟨ascii "/srv/public/Main.CSS", by decide +kernel⟩

/-- For a file without a dot there is no extension to copy. -/
theorem not_mime_type : ¬ TypeRight [] (ascii "/srv/public/README")
    (getMimeType (createDictionary [] 0) (ascii "/srv/public/README")) := by
  have crashes : getMimeType (createDictionary [] 0) (ascii "/srv/public/README") = none := by
    decide +kernel
  rw [crashes]
  exact nofun

end StaticServer
