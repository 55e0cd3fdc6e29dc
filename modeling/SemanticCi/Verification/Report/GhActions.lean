import SemanticCi.Library.Framing
import SemanticCi.Model.GhActions
import SemanticCi.Python.Identifier

/-! The workflow commands read back: a line says nothing but what its instruction says. -/

namespace SemanticCi.Report

open SemanticCi.Python Escapes

/-! ## Escaped texts -/

/-- The escapes of a message. -/
def messageTable : Table Char where
  mark := '%'
  code := ['2', '5']
  rest := [('\r', ['0', 'D']), ('\n', ['0', 'A'])]
  lawful := ⟨by decide, by decide, by decide, by decide⟩

/-- The escapes of a property. -/
def propertyTable : Table Char where
  mark := '%'
  code := ['2', '5']
  rest := [('\r', ['0', 'D']), ('\n', ['0', 'A']), (':', ['3', 'A']), (',', ['2', 'C'])]
  lawful := ⟨by decide, by decide, by decide, by decide⟩

/-- What the runner does to a message. -/
def unescapeMessage (text : String) : String :=
  replace (replace (replace text "%0D" "\r") "%0A" "\n") "%25" "%"

/-- What the runner does to a property. -/
def unescapeProperty (text : String) : String :=
  replace (replace (replace (replace (replace text "%0D" "\r") "%0A" "\n") "%3A" ":") "%2C" ",")
    "%25" "%"

theorem toList_replace (text old new : String) :
    (replace text old new).toList = replaceAll old.toList new.toList text.toList :=
  String.toList_ofList

theorem toList_escapeMessage (value : String) :
    (escapeMessage value).toList = messageTable.escape value.toList := by
  simp only [escapeMessage, toList_replace]
  rfl

theorem toList_escapeProperty (value : String) :
    (escapeProperty value).toList = propertyTable.escape value.toList := by
  simp only [escapeProperty, escapeMessage, toList_replace]
  rfl

theorem unescapeMessage_escapeMessage (value : String) :
    unescapeMessage (escapeMessage value) = value := by
  rw [← String.toList_inj]
  simp only [unescapeMessage, toList_replace, toList_escapeMessage]
  exact messageTable.unescape_escape value.toList

theorem unescapeProperty_escapeProperty (value : String) :
    unescapeProperty (escapeProperty value) = value := by
  rw [← String.toList_inj]
  simp only [unescapeProperty, toList_replace, toList_escapeProperty]
  exact propertyTable.unescape_escape value.toList

theorem notMem_escapeMessage {c : Char} (h : c ∈ ['\r', '\n']) (value : String) :
    c ∉ (escapeMessage value).toList := by
  rw [toList_escapeMessage]
  exact messageTable.notMem_escape h value.toList

theorem notMem_escapeProperty {c : Char} (h : c ∈ ['\r', '\n', ':', ',']) (value : String) :
    c ∉ (escapeProperty value).toList := by
  rw [toList_escapeProperty]
  exact propertyTable.notMem_escape h value.toList

/-! ## Reading a line -/

/-- What a workflow command says. -/
structure Annotation where
  command : String
  properties : List (String × String)
  message : String

/-- A property is cut at its first `=`. -/
def readProperty (item : List Char) : String × String :=
  (String.ofList (item.takeWhile (· ≠ '=')),
    unescapeProperty (String.ofList ((item.dropWhile (· ≠ '=')).drop 1)))

/-- The properties are cut at all commas, behind the first space. -/
def readProperties (header : List Char) : List (String × String) :=
  match header.dropWhile (· ≠ ' ') with
  | [] => []
  | _ :: items => (items.splitOn ',').map readProperty

/-- A line is cut at its first colons behind those in front. -/
def readCommand (line : String) : Option Annotation :=
  match line.toList with
  | ':' :: ':' :: rest =>
    (partitionColons rest).map fun (header, data) =>
      { command := String.ofList (header.takeWhile (· ≠ ' '))
        properties := readProperties header
        message := unescapeMessage (String.ofList data) }
  | _ => none

/-- The annotation that an instruction asks for. -/
def annotationOf (cwd : PurePath) (instruction : InstructionRecord) : Annotation where
  command := commandName instruction
  properties := properties cwd instruction
  message := commandMessage instruction

/-! ## Keys and commands -/

theorem mem_properties {cwd : PurePath} {instruction : InstructionRecord} {item : String × String}
    (h : item ∈ properties cwd instruction) : item.1 = "file" ∨ item.1 = "line" := by
  rw [properties] at h
  split at h
  · cases h
  · exact .inl (by rw [List.mem_singleton.mp h])
  · rcases List.mem_cons.mp h with rfl | h
    · exact .inl rfl
    · exact .inr (by rw [List.mem_singleton.mp h])

theorem notMem_commandName (instruction : InstructionRecord) {c : Char}
    (h : c ∈ [' ', ':', '\r', '\n']) : c ∉ (commandName instruction).toList := by
  have hnames : ∀ name ∈ [['e', 'r', 'r', 'o', 'r'], ['w', 'a', 'r', 'n', 'i', 'n', 'g'],
      ['n', 'o', 't', 'i', 'c', 'e']], ∀ c ∈ [' ', ':', '\r', '\n'], c ∉ name := by
    simp
  apply hnames _ ?_ c h
  rw [commandName]
  split
  · exact List.mem_cons_self
  · split
    · exact List.mem_cons_of_mem _ List.mem_cons_self
    · exact List.mem_cons_of_mem _ (List.mem_cons_of_mem _ List.mem_cons_self)

/-- A property as it is written. -/
def writtenProperty (item : String × String) : List Char :=
  item.1.toList ++ '=' :: (escapeProperty item.2).toList

theorem notMem_key {cwd : PurePath} {instruction : InstructionRecord} {item : String × String}
    (hitem : item ∈ properties cwd instruction) {c : Char} (h : c ∈ ['\r', '\n', ':', ',', '=']) :
    c ∉ item.1.toList := by
  have hkeys : ∀ key ∈ [['f', 'i', 'l', 'e'], ['l', 'i', 'n', 'e']],
      ∀ c ∈ ['\r', '\n', ':', ',', '='], c ∉ key := by
    simp
  apply hkeys _ ?_ c h
  rcases mem_properties hitem with hkey | hkey
  · rw [hkey]
    exact List.mem_cons_self
  · rw [hkey]
    exact List.mem_cons_of_mem _ List.mem_cons_self

theorem notMem_writtenProperty {cwd : PurePath} {instruction : InstructionRecord}
    {item : String × String} (hitem : item ∈ properties cwd instruction) {c : Char}
    (h : c ∈ ['\r', '\n', ':', ',']) : c ∉ writtenProperty item := by
  have hkey := notMem_key hitem (List.mem_append_left ['='] h)
  have hvalue := notMem_escapeProperty h item.2
  have hequals : c ≠ '=' := by
    rintro rfl
    exact absurd h (by decide)
  simp [writtenProperty, hkey, hvalue, hequals]

theorem readProperty_writtenProperty {cwd : PurePath} {instruction : InstructionRecord}
    {item : String × String} (hitem : item ∈ properties cwd instruction) :
    readProperty (writtenProperty item) = item := by
  have hkey : ∀ c ∈ item.1.toList, decide (c ≠ '=') = true := by
    intro c hc
    apply decide_eq_true
    rintro rfl
    exact notMem_key hitem (by decide) hc
  have htake : (writtenProperty item).takeWhile (· ≠ '=') = item.1.toList := by
    rw [writtenProperty, List.takeWhile_append_of_pos hkey]
    simp
  have hdrop : (writtenProperty item).dropWhile (· ≠ '=') =
      '=' :: (escapeProperty item.2).toList := by
    rw [writtenProperty, List.dropWhile_append_of_pos hkey]
    simp
  rw [readProperty, htake, hdrop, List.drop_one, List.tail_cons, String.ofList_toList,
    String.ofList_toList, unescapeProperty_escapeProperty]

/-! ## Reading back -/

/-- What stands in front of the message. -/
def writtenHeader (cwd : PurePath) (instruction : InstructionRecord) : List Char :=
  (commandName instruction).toList ++
    if properties cwd instruction = [] then []
    else ' ' :: [','].intercalate ((properties cwd instruction).map writtenProperty)

theorem toList_workflowCommand (cwd : PurePath) (instruction : InstructionRecord) :
    (workflowCommand cwd instruction).toList =
      ':' :: ':' :: (writtenHeader cwd instruction ++
        ':' :: ':' :: (escapeMessage (commandMessage instruction)).toList) := by
  have hcolons : ("::" : String).toList = [':', ':'] := rfl
  have hcomma : ("," : String).toList = [','] := rfl
  have hspace : (" " : String).toList = [' '] := rfl
  have hequals : ("=" : String).toList = ['='] := rfl
  have hitem : String.toList ∘
      (fun item : String × String => item.1 ++ "=" ++ escapeProperty item.2) = writtenProperty := by
    funext item
    simp [writtenProperty, hequals]
  by_cases hnone : properties cwd instruction = []
  · simp [workflowCommand, writtenHeader, hnone, hcolons]
  · simp only [workflowCommand, writtenHeader, hnone, if_false, ne_eq, not_false_eq_true, if_true,
      String.toList_append, String.toList_intercalate, List.map_map, hitem, hcolons, hcomma, hspace]
    simp

/-- The header holds none of the characters that end it. -/
theorem notMem_writtenHeader (cwd : PurePath) (instruction : InstructionRecord) {c : Char}
    (h : c ∈ ['\r', '\n', ':']) : c ∉ writtenHeader cwd instruction := by
  have hchars : ∀ c ∈ ['\r', '\n', ':'],
      c ∈ [' ', ':', '\r', '\n'] ∧ c ∈ ['\r', '\n', ':', ','] ∧ c ∉ [' ', ','] := by
    simp
  obtain ⟨hcommand, hproperty, hsep⟩ := hchars c h
  rw [writtenHeader, List.mem_append, not_or]
  refine ⟨notMem_commandName instruction hcommand, ?_⟩
  split
  · exact List.not_mem_nil
  · intro hmem
    rcases List.mem_cons.mp hmem with rfl | hmem
    · exact hsep List.mem_cons_self
    · rcases mem_of_mem_intercalate hmem with hcomma | ⟨piece, hpiece, hmem⟩
      · exact hsep (List.mem_cons_of_mem _ hcomma)
      · obtain ⟨item, hitem, rfl⟩ := List.mem_map.mp hpiece
        exact notMem_writtenProperty hitem hproperty hmem

section Header

variable (cwd : PurePath) (instruction : InstructionRecord)

theorem command_ne_space (c : Char) (hc : c ∈ (commandName instruction).toList) :
    decide (c ≠ ' ') = true := by
  apply decide_eq_true
  rintro rfl
  exact notMem_commandName instruction (by decide) hc

theorem takeWhile_writtenHeader :
    (writtenHeader cwd instruction).takeWhile (· ≠ ' ') = (commandName instruction).toList := by
  rw [writtenHeader, List.takeWhile_append_of_pos (command_ne_space instruction)]
  split <;> simp

theorem readProperties_writtenHeader :
    readProperties (writtenHeader cwd instruction) = properties cwd instruction := by
  rw [readProperties, writtenHeader, List.dropWhile_append_of_pos (command_ne_space instruction)]
  by_cases hnone : properties cwd instruction = []
  · simp [hnone]
  · rw [if_neg hnone, List.dropWhile_cons_of_neg (by simp)]
    have hitems : ∀ item ∈ (properties cwd instruction).map writtenProperty, ',' ∉ item := by
      rw [List.forall_mem_map]
      exact fun item hitem => notMem_writtenProperty hitem (by decide)
    have hsplit := List.splitOn_intercalate ',' hitems (by simpa using hnone)
    simp only [hsplit, List.map_map]
    exact (List.map_congr_left fun item hitem => readProperty_writtenProperty hitem).trans
      (List.map_id _)

/-- A line is read back as what its instruction says. -/
theorem readCommand_workflowCommand :
    readCommand (workflowCommand cwd instruction) = some (annotationOf cwd instruction) := by
  have hcolon : ':' ∉ writtenHeader cwd instruction :=
    notMem_writtenHeader cwd instruction (by decide)
  have hlast : (writtenHeader cwd instruction).getLast? ≠ some ':' :=
    fun hsome => hcolon (List.mem_of_getLast? hsome)
  rw [readCommand, toList_workflowCommand]
  simp only [partitionColons_of_none (partitionColons_eq_none_of_notMem hcolon) hlast,
    Option.map_some, readProperties_writtenHeader, takeWhile_writtenHeader, String.ofList_toList,
    unescapeMessage_escapeMessage, annotationOf]

end Header

theorem notMem_workflowCommand (cwd : PurePath) (instruction : InstructionRecord) {c : Char}
    (h : c ∈ ['\r', '\n']) : c ∉ (workflowCommand cwd instruction).toList := by
  have hheader := notMem_writtenHeader cwd instruction (List.mem_append_left [':'] h)
  have hmessage := notMem_escapeMessage h (commandMessage instruction)
  have hcolon : c ≠ ':' := by
    rintro rfl
    exact absurd h (by decide)
  simp [toList_workflowCommand, hheader, hmessage, hcolon]

/-! ## The output -/

end SemanticCi.Report
