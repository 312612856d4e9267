import Mathlib.Data.List.Nodup
import WinMiniTools.DottedQuads
import WinMiniTools.RouteRows
import WinMiniTools.Tokens

/-!
Reading the report of all routes. The printed text falls into tokens at its
tabulators and line ends, and these into a block for each row
(`report_blocks`); under a label a block has one number and the text after it
(`block_entries`). So the report shows every field of every row, with texts
that describe the numbers, exactly when every route's age is its origin
(`report_faithful_iff`).
-/
namespace WinMiniTools.RouteReport
open WinMiniTools.Loops WinMiniTools.Tokens WinMiniTools.RouteRows

/-! ### What a reader takes from a report -/

def separates (c : Char) : Bool := c = '\t' ∨ c = '\n'

def isRoute (token : List Char) : Bool := token.take 6 = "Route[".toList

/-- The tokens of each row. -/
def blocks (text : List Char) : List (List (List Char)) := ((tokens separates text).splitOnP isRoute).tail

/-- The number under a label, and the text after it. -/
def entry (label : Label) (token : List Char) : Option (Int × List Char) :=
  if token.takeWhile (fun c => c ≠ ':') = label.text then
    Decimals.read ((token.dropWhile (fun c => c ≠ ':')).drop 2)
  else none
def entries (label : Label) (block : List (List Char)) : List (Int × List Char) := block.filterMap (entry label)

/-- The field of a row that has the label's name. -/
def field (row : MibIpforwardRow2) : Label → BitVec 32
  | .ifType => row.ifType.setWidth 32
  | .interfaceIndex => row.interfaceIndex
  | .prefixLength => row.prefixLength.setWidth 32
  | .sitePrefixLength => row.sitePrefixLength.setWidth 32
  | .validLifetime => row.validLifetime
  | .preferredLifetime => row.preferredLifetime
  | .metric => row.metric
  | .protocol => row.protocol
  | .loopback => row.loopback.setWidth 32
  | .autoconfigureAddress => row.autoconfigureAddress.setWidth 32
  | .publish => row.publish.setWidth 32
  | .immortal => row.immortal.setWidth 32
  | .age => row.age
  | .origin => row.origin

/-- The text that describes a number under a label, for the labels that have such texts. -/
def description : Label → BitVec 32 → Option (List Char)
  | .ifType, value => some ((ifTypeText value).getD [])
  | .protocol, value => some (protocolText value)
  | .origin, value => some (originText value)
  | _, _ => none

def rows (t : MibIpforwardTable2) : List MibIpforwardRow2 := (List.range t.numEntries.toNat).map t.table

/-- There is a block for each row, in order, with the row's field under each
    label, and every description is that of the number before it. -/
structure Faithful (t : MibIpforwardTable2) (text : List Char) : Prop where
  numbers : ∀ label, (blocks text).map (fun b => (entries label b).map (fun e => BitVec.ofInt 32 e.1)) =
    (rows t).map (fun row => [field row label])
  described : ∀ b ∈ blocks text, ∀ label, ∀ e ∈ entries label b, ∀ d,
    description label (BitVec.ofInt 32 e.1) = some d → e.2 = ' ' :: d

/-! ### Entries -/

theorem label_all (label : Label) : label ∈ [Label.ifType, .interfaceIndex, .prefixLength, .sitePrefixLength,
    .validLifetime, .preferredLifetime, .metric, .protocol, .loopback, .autoconfigureAddress, .publish, .immortal,
    .age, .origin] := by
  cases label <;> simp

theorem label_text_inj {label other : Label} (same : label.text = other.text) : label = other :=
  List.inj_on_of_nodup_map (by decide) (label_all label) (label_all other) same

/-- A label is letters and blanks, and is not taken for a next hop or a heading. -/
theorem label_text_plain (label : Label) :
    label.text.all (fun c => c ≠ ':' ∧ separates c = false) = true ∧
      ∃ c rest, label.text = c :: rest ∧ c ≠ 'N' ∧ c ≠ 'R' := by
  cases label <;> exact ⟨by decide, _, _, rfl, by decide, by decide⟩

theorem entry_number (label other : Label) (value : BitVec 32) {remark : List Char} (ends : Decimals.Ends remark) :
    entry label (numberToken other value remark) = if other = label then some (value.toInt, remark) else none := by
  have letters : ∀ c ∈ other.text, decide (c ≠ ':') = true := by
    intro c member
    have plain := List.all_eq_true.mp (label_text_plain other).1 c member
    exact decide_eq_true (of_decide_eq_true plain).1
  have name : (numberToken other value remark).takeWhile (fun c => c ≠ ':') = other.text := by
    rw [numberToken, List.takeWhile_append_of_pos letters]
    simp
  have rest : ((numberToken other value remark).dropWhile (fun c => c ≠ ':')).drop 2 =
      Decimals.write value.toInt ++ remark := by
    rw [numberToken, List.dropWhile_append_of_pos letters]
    rfl
  unfold entry
  rw [name, rest]
  by_cases same : other = label
  · rw [if_pos (congrArg Label.text same), if_pos same, Decimals.read_write _ ends]
  · rw [if_neg (fun texts => same (label_text_inj texts)), if_neg same]

theorem entry_nextHop (label : Label) (text : List Char) : entry label ("NextHop ".toList ++ text) = none := by
  obtain ⟨_, c, rest, split, other, _⟩ := label_text_plain label
  unfold entry
  rw [if_neg]
  intro same
  rw [split] at same
  exact other (List.cons.inj same).1.symm

/-- The number that is printed under a label. -/
def printed (row : MibIpforwardRow2) (label : Label) : BitVec 32 :=
  if label = .origin then row.age else field row label

/-- What is printed after the number. -/
def remark (N : AddressTexts) (row : MibIpforwardRow2) : Label → List Char
  | .ifType => ' ' :: (ifTypeText (row.ifType.setWidth 32)).getD []
  | .prefixLength => ' ' :: addressText N "addr".toList row.destination
  | .protocol => ' ' :: protocolText row.protocol
  | .origin => ' ' :: originText row.origin
  | _ => []

/-- A row's lines have one entry for each label. -/
theorem block_entries (N : AddressTexts) (row : MibIpforwardRow2) (label : Label) :
    entries label ((lines N row).map Line.token) = [((printed row label).toInt, remark N row label)] := by
  have blank : ∀ text, Decimals.Ends (' ' :: text) := fun text => Decimals.ends_cons (by decide) text
  simp only [entries, lines, ifTypeLine, plain, remarked, List.map_cons, List.map_nil, List.filterMap_cons,
    List.filterMap_nil, entry_number label _ _ (blank _), entry_number label _ _ Decimals.ends_nil, entry_nextHop]
  cases label <;> rfl

/-! ### Tokens -/

theorem write_unbroken (z : Int) : Unbroken separates (Decimals.write z) := by
  intro c member
  rcases Decimals.write_chars member with rfl | digit
  · decide
  · apply decide_eq_false
    rintro (rfl | rfl)
    · exact absurd digit (by decide)
    · exact absurd digit (by decide)

theorem numberToken_unbroken (label : Label) (value : BitVec 32) {remark : List Char}
    (unbroken : Unbroken separates remark) : Unbroken separates (numberToken label value remark) := by
  have name : Unbroken separates label.text := by
    intro c member
    exact (of_decide_eq_true (List.all_eq_true.mp (label_text_plain label).1 c member)).2
  have colon : Unbroken separates [':', ' '] := unbroken_of_all rfl
  exact unbroken_append name (unbroken_append colon (unbroken_append (write_unbroken _) unbroken))

theorem blank_unbroken {text : List Char} (unbroken : Unbroken separates text) : Unbroken separates (' ' :: text) :=
  unbroken_append (unbroken_of_all rfl : Unbroken separates [' ']) unbroken

/-- A switch selects one of its texts, or the default. -/
theorem switch_unbroken {cases : List (BitVec 32 × List Char)} {default : List Char}
    (each : cases.all (fun c => c.2.all (fun d => !separates d)) = true) (last : Unbroken separates default)
    (value : BitVec 32) : Unbroken separates ((switch cases value).getD default) := by
  unfold switch
  cases found : cases.find? (fun c => c.1 = value) with
  | none => exact last
  | some c => exact unbroken_of_all (List.all_eq_true.mp each c (List.mem_of_find?_eq_some found))

theorem ifTypeText_unbroken (value : BitVec 32) : Unbroken separates ((ifTypeText value).getD []) :=
  switch_unbroken (by decide +kernel) (unbroken_of_all rfl) value
theorem protocolText_unbroken (value : BitVec 32) : Unbroken separates (protocolText value) :=
  switch_unbroken (by decide +kernel) (unbroken_of_all rfl) value
theorem originText_unbroken (value : BitVec 32) : Unbroken separates (originText value) :=
  switch_unbroken (by decide +kernel) (unbroken_of_all rfl) value

theorem addressText_unbroken (N : AddressTexts) (word : List Char) (plain : word.all (fun c => !separates c) = true)
    (address : SockaddrInet) : Unbroken separates (addressText N word address) := by
  have visible : ∀ {text : List Char}, (∀ c ∈ text, ¬ c.isWhitespace) → Unbroken separates text := by
    intro text all c member
    apply decide_eq_false
    rintro (rfl | rfl)
    · exact all _ member rfl
    · exact all _ member rfl
  have named : ∀ version : List Char, version.all (fun c => !separates c) = true →
      Unbroken separates (version ++ word ++ [':', ' ']) := fun version shown =>
    unbroken_append (unbroken_append (unbroken_of_all shown) (unbroken_of_all plain)) (unbroken_of_all rfl)
  unfold addressText
  split_ifs
  · exact unbroken_append (named _ (by decide +kernel)) (visible (N.visible.1 _))
  · exact unbroken_append (named _ (by decide +kernel)) (visible (N.visible.2 _))
  · exact unbroken_of_all rfl

/-- A token that starts with a word of its own is a heading if the word is. -/
theorem word_token (word : List Char) {rest : List Char} (visible : word.all (fun c => !separates c) = true)
    (long : 6 ≤ word.length) (unbroken : Unbroken separates rest) :
    word ++ rest ≠ [] ∧ Unbroken separates (word ++ rest) ∧ isRoute (word ++ rest) = isRoute word := by
  refine ⟨?_, unbroken_append (unbroken_of_all visible) unbroken, ?_⟩
  · apply List.append_ne_nil_of_left_ne_nil
    rintro rfl
    exact absurd long (by decide)
  · rw [isRoute, List.take_append_of_le_length long, isRoute]

/-- The token of a line starts with a letter, is in one piece and is no heading. -/
structure Whole (token : List Char) : Prop where
  some : token ≠ []
  unbroken : Unbroken separates token
  body : isRoute token = false

theorem numberToken_whole (label : Label) (value : BitVec 32) {remark : List Char}
    (unbroken : Unbroken separates remark) : Whole (numberToken label value remark) := by
  obtain ⟨_, c, rest, split, _, other⟩ := label_text_plain label
  refine ⟨by simp [numberToken, split], numberToken_unbroken label value unbroken, ?_⟩
  apply decide_eq_false
  rw [numberToken, split]
  intro same
  exact other (List.cons.inj same).1

theorem lines_whole (N : AddressTexts) (row : MibIpforwardRow2) : ∀ line ∈ lines N row, Whole line.token := by
  have nextHop : Whole ("NextHop ".toList ++ addressText N "NextHop".toList row.nextHop) := by
    obtain ⟨some, unbroken, heading⟩ := word_token "NextHop ".toList (by decide +kernel) (by decide +kernel)
      (addressText_unbroken N "NextHop".toList (by decide +kernel) row.nextHop)
    exact ⟨some, unbroken, heading.trans (by decide +kernel)⟩
  have empty : Unbroken separates [] := unbroken_of_all rfl
  simp only [lines, List.forall_mem_cons, ifTypeLine, plain, remarked]
  refine ⟨numberToken_whole _ _ (blank_unbroken (ifTypeText_unbroken _)), numberToken_whole _ _ empty,
    numberToken_whole _ _ (blank_unbroken (addressText_unbroken N "addr".toList (by decide +kernel) _)), nextHop,
    numberToken_whole _ _ empty, numberToken_whole _ _ empty, numberToken_whole _ _ empty,
    numberToken_whole _ _ empty, numberToken_whole _ _ (blank_unbroken (protocolText_unbroken _)),
    numberToken_whole _ _ empty, numberToken_whole _ _ empty, numberToken_whole _ _ empty,
    numberToken_whole _ _ empty, numberToken_whole _ _ empty,
    numberToken_whole _ _ (blank_unbroken (originText_unbroken _)), ?_⟩
  intro line member
  exact absurd member List.not_mem_nil

theorem tokens_lines {ls : List Line} (whole : ∀ line ∈ ls, Whole line.token) {rest : List Char}
    (starts : Starts separates rest) :
    tokens separates (ls.flatMap Line.text ++ rest) = ls.map Line.token ++ tokens separates rest := by
  induction ls with
  | nil => rfl
  | cons line ls ih =>
    obtain ⟨here, later⟩ := List.forall_mem_cons.mp whole
    -- A line starts with a tabulator, so a token before it ends there.
    have behind : Starts separates (ls.flatMap Line.text ++ rest) := by
      cases ls with
      | nil => exact starts
      | cons next ls =>
        rw [List.flatMap_cons, Line.text, List.cons_append, List.cons_append]
        exact starts_cons rfl _
    rw [List.flatMap_cons, Line.text, List.cons_append, List.cons_append, tokens_separator rfl, List.append_assoc,
      List.append_assoc, List.map_cons, List.cons_append, ← ih later]
    by_cases ended : line.ended
    · have newline : Starts separates (['\n'] ++ (ls.flatMap Line.text ++ rest)) := starts_cons rfl _
      rw [if_pos ended, tokens_token here.some here.unbroken newline]
      exact congrArg _ (tokens_separator rfl _)
    · rw [if_neg ended, List.nil_append, tokens_token here.some here.unbroken behind]

/-! ### Blocks -/

theorem routeToken_whole (i : Nat) : routeToken i ≠ [] ∧ Unbroken separates (routeToken i) ∧ isRoute (routeToken i) = true := by
  obtain ⟨some, unbroken, heading⟩ := word_token "Route[".toList (by decide +kernel) (by decide +kernel)
    (unbroken_append (write_unbroken i) (unbroken_of_all rfl : Unbroken separates [']']))
  exact ⟨some, unbroken, heading.trans (by decide +kernel)⟩

theorem entriesToken_whole (t : MibIpforwardTable2) : Whole (entriesToken t) := by
  obtain ⟨some, unbroken, heading⟩ := word_token "Number of entries: ".toList (by decide +kernel) (by decide +kernel)
    (write_unbroken t.numEntries.toInt)
  exact ⟨some, unbroken, heading.trans (by decide +kernel)⟩

/-- The tokens of the rows of a table, each with its index. -/
theorem tokens_rows (N : AddressTexts) (table : Nat → MibIpforwardRow2) (indices : List Nat) :
    tokens separates (indices.flatMap (fun i => routeText N i (table i))) =
      indices.flatMap (fun i => routeToken i :: (lines N (table i)).map Line.token) := by
  induction indices with
  | nil => exact tokens_nil
  | cons i indices ih =>
    have behind : Starts separates (indices.flatMap (fun i => routeText N i (table i))) := by
      cases indices with
      | nil => exact starts_nil
      | cons j indices => exact starts_cons rfl _
    obtain ⟨some, unbroken, _⟩ := routeToken_whole i
    rw [List.flatMap_cons, List.flatMap_cons, routeText, List.cons_append, tokens_separator rfl, List.append_assoc,
      List.cons_append, tokens_token some unbroken (starts_cons rfl _), tokens_separator rfl,
      tokens_lines (lines_whole N (table i)) behind, ih, List.cons_append]

/-- The rows printed from an index on. -/
theorem rowLoop_events (N : AddressTexts) {t : MibIpforwardTable2} (few : t.numEntries.toNat < 2 ^ 31) (i : Nat) :
    (rowLoop N t).events i =
      (List.range' i (t.numEntries.toNat - i)).map (fun j => routeText N j (t.table j)) := by
  have count : t.numEntries.toInt = t.numEntries.toNat := BitVec.toInt_eq_toNat_of_lt (by omega)
  induction i using (rowLoop N t).induct with
  | step i ih =>
    by_cases more : (i : Int) < t.numEntries.toInt
    · have body : (rowLoop N t).body i = ([routeText N i (t.table i)], .inl (i + 1)) := if_pos more
      have one : t.numEntries.toNat - i = (t.numEntries.toNat - (i + 1)) + 1 := by omega
      rw [Loop.events_next _ body, ih _ _ body, one, List.range'_succ, List.map_cons]
      rfl
    · have body : (rowLoop N t).body i = ([], .inr ()) := if_neg more
      have none : t.numEntries.toNat - i = 0 := by omega
      rw [Loop.events_leave _ body, none]
      rfl

/-- A report has a block of the lines of every row, in order. -/
theorem report_blocks (N : AddressTexts) {t : MibIpforwardTable2} (few : t.numEntries.toNat < 2 ^ 31) :
    blocks (report N t) = (rows t).map (fun row => (lines N row).map Line.token) := by
  have whole := entriesToken_whole t
  have split : tokens separates (report N t) = [entriesToken t] ++
      (List.range t.numEntries.toNat).flatMap (fun i => routeToken i :: (lines N (t.table i)).map Line.token) := by
    rw [report, tokens_separator rfl, tokens_token whole.some whole.unbroken (starts_cons rfl _), tokens_separator rfl,
      rowLoop_events N few, Nat.sub_zero, ← List.range_eq_range', ← List.flatMap_def, tokens_rows]
    rfl
  have front : ∀ token ∈ [entriesToken t], isRoute token = false := by
    intro token member
    rw [List.mem_singleton.mp member]
    exact whole.body
  have bodies : ∀ i ∈ List.range t.numEntries.toNat, ∀ token ∈ (lines N (t.table i)).map Line.token,
      isRoute token = false := by
    intro i _ token member
    obtain ⟨line, printed, rfl⟩ := List.mem_map.mp member
    exact (lines_whole N (t.table i) line printed).body
  rw [blocks, split, sections_eq (fun i _ => (routeToken_whole i).2.2) bodies front, List.tail_cons, rows, List.map_map]
  rfl

/-! ### Faithfulness -/

theorem printed_eq_iff (row : MibIpforwardRow2) : (∀ label, printed row label = field row label) ↔ row.age = row.origin := by
  constructor
  · intro same
    exact same .origin
  · intro same label
    unfold printed
    by_cases isOrigin : label = .origin
    · rw [if_pos isOrigin, isOrigin]
      exact same
    · rw [if_neg isOrigin]

theorem remark_described (N : AddressTexts) (row : MibIpforwardRow2) (same : row.age = row.origin) (label : Label)
    {d : List Char} (described : description label (printed row label) = some d) : remark N row label = ' ' :: d := by
  cases label <;> cases described
  · rfl
  · rfl
  · show ' ' :: originText row.origin = ' ' :: originText row.age
    rw [same]

/-- What a report shows under a label. -/
theorem report_numbers (N : AddressTexts) {t : MibIpforwardTable2} (few : t.numEntries.toNat < 2 ^ 31) (label : Label) :
    (blocks (report N t)).map (fun b => (entries label b).map (fun e => BitVec.ofInt 32 e.1)) =
      (rows t).map (fun row => [printed row label]) := by
  rw [report_blocks N few, List.map_map]
  apply List.map_congr_left
  intro row _
  simp only [Function.comp, block_entries, List.map_cons, List.map_nil, BitVec.ofInt_toInt]

/-- The report of a table is faithful exactly when every row's age is its origin. -/
theorem report_faithful_iff (N : AddressTexts) {t : MibIpforwardTable2} (few : t.numEntries.toNat < 2 ^ 31) :
    Faithful t (main N true (.ok t)).1 ↔ ∀ row ∈ rows t, row.age = row.origin := by
  have text : (main N true (.ok t)).1 = report N t := rfl
  rw [text]
  constructor
  · intro faithful row member
    have shown := faithful.numbers .origin
    rw [report_numbers N few, List.map_inj_left] at shown
    exact List.singleton_inj.mp (shown row member)
  · intro same
    constructor
    · intro label
      rw [report_numbers N few, List.map_inj_left]
      intro row member
      rw [(printed_eq_iff row).mpr (same row member) label]
    · intro b inside label e found d described
      rw [report_blocks N few] at inside
      obtain ⟨row, member, rfl⟩ := List.mem_map.mp inside
      rw [block_entries, List.mem_singleton] at found
      rw [found, BitVec.ofInt_toInt] at described
      rw [found]
      exact remark_described N row (same row member) label described

/-- Addresses as dotted quads; the routes below have no others. -/
def quads : AddressTexts where
  inetNtoa := DottedQuads.write
  inetNtop _ := "::".toList
  visible := by
    constructor
    · intro a c member
      rcases DottedQuads.write_chars a c member with rfl | digit
      · decide
      · intro blank
        simp only [Char.isWhitespace, Bool.or_eq_true, decide_eq_true_eq] at blank
        rcases blank with ((rfl | rfl) | rfl) | rfl <;> exact absurd digit (by decide)
    · intro _ c member
      have shown : "::".toList.all (fun c => !c.isWhitespace) = true := by decide +kernel
      simpa using List.all_eq_true.mp shown c member

/-- A route of the loopback interface, of the given age and set by hand. -/
def loopbackRoute (age : BitVec 32) : MibIpforwardRow2 where
  ifType := 24
  interfaceIndex := 1
  prefixLength := 8
  destination := { si_family := AF_INET, sin_addr := 0x0000007F, sin6_addr := 0 }
  nextHop := { si_family := AF_INET, sin_addr := 0, sin6_addr := 0 }
  sitePrefixLength := 0
  validLifetime := 0xFFFFFFFF
  preferredLifetime := 0xFFFFFFFF
  metric := 256
  protocol := MIB_IPPROTO_LOCAL
  loopback := 1
  autoconfigureAddress := 1
  publish := 0
  immortal := 1
  age := age
  origin := NlroManual

def oneRoute (age : BitVec 32) : MibIpforwardTable2 where
  numEntries := 1
  table _ := loopbackRoute age

theorem new_route_faithful : (oneRoute 0).numEntries.toNat < 2 ^ 31 ∧
    Faithful (oneRoute 0) (main quads true (.ok (oneRoute 0))).1 := by
  refine ⟨by decide, (report_faithful_iff quads (by decide)).mpr ?_⟩
  intro row member
  obtain ⟨_, _, rfl⟩ := List.mem_map.mp member
  rfl

/-- A route set by hand an hour ago shows the origin 3600. -/
theorem old_route_misreported : ¬ Faithful (oneRoute 3600) (main quads true (.ok (oneRoute 3600))).1 := by
  intro faithful
  have shown := faithful.numbers .origin
  have text : (main quads true (.ok (oneRoute 3600))).1 = report quads (oneRoute 3600) := rfl
  rw [text, report_numbers quads (by decide)] at shown
  revert shown
  decide

end WinMiniTools.RouteReport
