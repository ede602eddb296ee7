import Iperf3.Contracts
import Iperf3.JsonCodec
import Iperf3.PrintRefinement
import Iperf3.RingList

/-!
# JSON items in memory

The items of the JSON library as it keeps them: nodes with pointers, of which
`next` and `prev` are kept apart from the rest, and the texts that they point
to.  A program that follows a pointer to something that is not allocated gives
up, and so does one that frees such a thing.
-/

namespace Iperf3

namespace JsonHeap

open Fallible FloatScan

inductive Kind where
  | invalid
  | false
  | true
  | null
  | number
  | string
  | array
  | object
  deriving DecidableEq, Repr

/-- `struct cJSON` without `next` and `prev`; the two flags are bits of `type`. -/
structure Node where
  child : Option ℕ
  kind : Kind
  isReference : Bool
  stringIsConst : Bool
  valuestring : Option ℕ
  valuedouble : Double
  string : Option ℕ

/-- The size counts the nodes, so that it bounds every walk through them.
`refused` records that a request for memory has been refused; the program does
not see it. -/
structure Heap where
  nodes : ℕ → Option Node
  links : LinkedList.Links ℕ
  texts : ℕ → Option CString
  size : ℕ
  refused : Bool

/-- Each allocation may fail, or it gives what is not in use.  `buffer` tells
for which sizes there is memory when a text is printed. -/
structure Allocator where
  node : Heap → Option ℕ
  text : Heap → Option ℕ
  buffer : Heap → ℕ → Bool
  node_free : ∀ h a, node h = some a → h.nodes a = none
  text_free : ∀ h k, text h = some k → h.texts k = none

abbrev HeapProgram (α : Type) : Type :=
  Fallible Heap α

/-! ## Memory accesses -/

def readNode (a : ℕ) : HeapProgram Node :=
  fun h => (h.nodes a, h)

def writeNode (a : ℕ) (u : Node → Node) : HeapProgram Unit :=
  fun h =>
    match h.nodes a with
    | none => (none, h)
    | some node => (some (), { h with nodes := Function.update h.nodes a (some (u node)) })

def readNext (a : ℕ) : HeapProgram (Option ℕ) :=
  fun h => ((h.nodes a).map fun _ => h.links.next a, h)

def readPrev (a : ℕ) : HeapProgram (Option ℕ) :=
  fun h => ((h.nodes a).map fun _ => h.links.prev a, h)

def writeNext (a : ℕ) (target : Option ℕ) : HeapProgram Unit :=
  fun h => ((h.nodes a).map fun _ => (), { h with links := h.links.setNext a target })

def writePrev (a : ℕ) (target : Option ℕ) : HeapProgram Unit :=
  fun h => ((h.nodes a).map fun _ => (), { h with links := h.links.setPrev a target })

def readText (k : ℕ) : HeapProgram CString :=
  fun h => (h.texts k, h)

def writeText (k : ℕ) (u : CString → CString) : HeapProgram Unit :=
  fun h =>
    match h.texts k with
    | none => (none, h)
    | some s => (some (), { h with texts := Function.update h.texts k (some (u s)) })

def freeNode (a : ℕ) : HeapProgram Unit :=
  fun h => ((h.nodes a).map fun _ => (), { h with
    nodes := Function.update h.nodes a none
    size := h.size - 1 })

def freeText (k : ℕ) : HeapProgram Unit :=
  fun h => ((h.texts k).map fun _ => (), { h with texts := Function.update h.texts k none })

section Accesses

variable {h : Heap} {a k : ℕ} {node : Node} {s : CString}

theorem readNode_eq (hnode : h.nodes a = some node) : readNode a h = (some node, h) := by
  rw [readNode, hnode]

theorem readNext_eq (hnode : h.nodes a = some node) :
    readNext a h = (some (h.links.next a), h) := by
  rw [readNext, hnode]
  rfl

theorem readText_eq (hs : h.texts k = some s) : readText k h = (some s, h) := by
  rw [readText, hs]

end Accesses

/-! ## Making and deleting items -/

def zeroNode : Node where
  child := none
  kind := .invalid
  isReference := false
  stringIsConst := false
  valuestring := none
  valuedouble := toDouble 0
  string := none

variable (m : Allocator)

/-- A request for memory has been refused. -/
def refuse : HeapProgram (Option ℕ) :=
  fun h => (some none, { h with refused := true })

/-- An allocation that does not fail is filled with this node. -/
def allocateNode (node : Node) : HeapProgram (Option ℕ) :=
  fun h =>
    match m.node h with
    | none => refuse h
    | some a =>
        (some (some a), { h with
          nodes := Function.update h.nodes a (some node)
          links := (h.links.setNext a none).setPrev a none
          size := h.size + 1 })

def Heap.setText (h : Heap) (k : ℕ) (s : CString) : Heap :=
  { h with texts := Function.update h.texts k (some s) }

def allocateText (s : CString) : HeapProgram (Option ℕ) :=
  fun h =>
    match m.text h with
    | none => refuse h
    | some k => (some (some k), h.setText k s)

def strdup : Option CString → HeapProgram (Option ℕ)
  | none => pure none
  | some s => allocateText m s

/-- The item and everything behind it in its list. -/
def deleteItems : ℕ → Option ℕ → HeapProgram Unit
  | _, none => pure ()
  | 0, some _ => giveUp
  | fuel + 1, some a => do
      let node ← readNode a
      let next ← readNext a
      provided (node.isReference = false) (deleteItems fuel node.child)
      provided (node.isReference = false) (whenGiven node.valuestring freeText)
      provided (node.stringIsConst = false) (whenGiven node.string freeText)
      freeNode a
      deleteItems fuel next

def delete (item : Option ℕ) : HeapProgram Unit :=
  reading fun h => deleteItems h.size item

def createPlain (kind : Kind) : HeapProgram (Option ℕ) :=
  allocateNode m { zeroNode with kind := kind }

def createBool (value : Bool) : HeapProgram (Option ℕ) :=
  createPlain m (if value then .true else .false)

def createArray : HeapProgram (Option ℕ) :=
  createPlain m .array

def createObject : HeapProgram (Option ℕ) :=
  createPlain m .object

def createNumber (number : Double) : HeapProgram (Option ℕ) :=
  allocateNode m { zeroNode with kind := .number, valuedouble := number }

def createString (s : Option CString) : HeapProgram (Option ℕ) := do
  let item ← createPlain m .string
  match item with
  | none => return none
  | some a =>
      let valuestring ← strdup m s
      match valuestring with
      | none =>
          delete (some a)
          return none
      | some k =>
          writeNode a fun node => { node with valuestring := some k }
          return some a

/-! ## Lists of children -/

def suffixObject (before item : ℕ) : HeapProgram Unit := do
  writeNext before (some item)
  writePrev item (some before)

/-- The last child is found through the `prev` of the first one. -/
def addItemToArray (array : ℕ) (item : Option ℕ) : HeapProgram Bool :=
  match item with
  | none => pure false
  | some item =>
      if array = item then pure false
      else do
        let node ← readNode array
        match node.child with
        | none =>
            writeNode array fun node => { node with child := some item }
            writePrev item (some item)
            writeNext item none
            return true
        | some first =>
            let last ← readPrev first
            whenGiven last fun last => do
              suffixObject last item
              writePrev first (some item)
            return true

def addItemToObject (object : ℕ) (string : CString) (item : Option ℕ) : HeapProgram Bool :=
  match item with
  | none => pure false
  | some item =>
      if object = item then pure false
      else do
        let newKey ← strdup m (some string)
        match newKey with
        | none => return false
        | some k =>
            let node ← readNode item
            provided (node.stringIsConst = false) (whenGiven node.string freeText)
            writeNode item fun node => { node with string := some k, stringIsConst := false }
            addItemToArray object (some item)

/-- What the `cJSON_Add...ToObject` functions do with the item they create. -/
def addCreated (create : HeapProgram (Option ℕ)) (object : ℕ) (name : CString) :
    HeapProgram (Option ℕ) := do
  let item ← create
  let added ← addItemToObject m object name item
  if added then return item
  else do
    delete item
    return none

def addBoolToObject (object : ℕ) (name : CString) (value : Bool) : HeapProgram (Option ℕ) :=
  addCreated m (createBool m value) object name

def addNumberToObject (object : ℕ) (name : CString) (number : Double) :
    HeapProgram (Option ℕ) :=
  addCreated m (createNumber m number) object name

def addStringToObject (object : ℕ) (name : CString) (s : Option CString) :
    HeapProgram (Option ℕ) :=
  addCreated m (createString m s) object name

def createReference (item : Option ℕ) : HeapProgram (Option ℕ) :=
  match item with
  | none => pure none
  | some item => do
      let node ← readNode item
      allocateNode m { node with string := none, isReference := true }

def addItemReferenceToObject (object : ℕ) (string : CString) (item : Option ℕ) :
    HeapProgram Bool := do
  let reference ← createReference m item
  addItemToObject m object string reference

/-- The pointers around the item, and the child of its parent. -/
def detachItemViaPointer (parent item : ℕ) : HeapProgram ℕ := do
  let node ← readNode parent
  let next ← readNext item
  let prev ← readPrev item
  provided (node.child ≠ some item) <|
    match prev with
    | none => giveUp
    | some before => writeNext before next
  whenGiven next fun behind => writePrev behind prev
  (if node.child = some item then
    writeNode parent fun node => { node with child := next }
  else
    provided (next = none) <|
      match node.child with
      | none => giveUp
      | some first => writePrev first prev)
  writePrev item none
  writeNext item none
  return item

/-! ## Looking items up -/

def hasName (name : CString) (node : Node) : HeapProgram Bool :=
  match node.string with
  | none => pure false
  | some k => do
      let s ← readText k
      return Key.sameName name s

/-- From a child on, the first one with this name. -/
def findName (name : CString) : ℕ → Option ℕ → HeapProgram (Option ℕ)
  | _, none => pure none
  | 0, some _ => giveUp
  | fuel + 1, some a => do
      let node ← readNode a
      let found ← hasName name node
      if found then return some a
      else do
        let next ← readNext a
        findName name fuel next

def getObjectItem (object : ℕ) (name : CString) : HeapProgram (Option ℕ) := do
  let node ← readNode object
  reading fun h => findName name h.size node.child

def getObjectItemType (object : ℕ) (name : CString) (kind : Kind) : HeapProgram (Option ℕ) := do
  let item ← getObjectItem object name
  match item with
  | none => return none
  | some item => do
      let node ← readNode item
      return if node.kind = kind then some item else none

def listSize : ℕ → Option ℕ → HeapProgram ℕ
  | _, none => pure 0
  | 0, some _ => giveUp
  | fuel + 1, some a => do
      let next ← readNext a
      let size ← listSize fuel next
      return size + 1

def getArraySize (array : ℕ) : HeapProgram ℕ := do
  let node ← readNode array
  reading fun h => listSize h.size node.child

def listItem : ℕ → Option ℕ → HeapProgram (Option ℕ)
  | _, none => pure none
  | 0, some a => pure (some a)
  | index + 1, some a => do
      let next ← readNext a
      listItem index next

def getArrayItem (array index : ℕ) : HeapProgram (Option ℕ) := do
  let node ← readNode array
  listItem index node.child

def detachItemFromObject (object : ℕ) (name : CString) : HeapProgram (Option ℕ) := do
  let item ← getObjectItem object name
  match item with
  | none => return none
  | some item => do
      let detached ← detachItemViaPointer object item
      return some detached

/-! ## Printing -/

/-- A pointer to no text is printed as an empty one. -/
def readString : Option ℕ → HeapProgram CString
  | none => pure []
  | some k => readText k

mutual

/-- The item as printing reads it; there is none when its type is not one that
can be printed. -/
def readItem : ℕ → ℕ → HeapProgram (Option JsonItem)
  | 0, _ => giveUp
  | fuel + 1, a => do
      let node ← readNode a
      match node.kind with
      | .invalid => return none
      | .false => return some (.bool false)
      | .true => return some (.bool true)
      | .null => return some .null
      | .number => return some (.number node.valuedouble)
      | .string => do
          let s ← readString node.valuestring
          return some (.string s)
      | .array => do
          let items ← readElements fuel node.child
          return items.map .array
      | .object => do
          let members ← readMembers fuel node.child
          return members.map .object

def readElements : ℕ → Option ℕ → HeapProgram (Option (List JsonItem))
  | _, none => pure (some [])
  | 0, some _ => giveUp
  | fuel + 1, some a => do
      let item ← readItem fuel a
      match item with
      | none => return none
      | some item => do
          let next ← readNext a
          let items ← readElements fuel next
          return items.map (item :: ·)

def readMembers : ℕ → Option ℕ → HeapProgram (Option (List (CString × JsonItem)))
  | _, none => pure (some [])
  | 0, some _ => giveUp
  | fuel + 1, some a => do
      let node ← readNode a
      let name ← readString node.string
      let item ← readItem fuel a
      match item with
      | none => return none
      | some item => do
          let next ← readNext a
          let members ← readMembers fuel next
          return members.map ((name, item) :: ·)

end

/-- The text of an item.  The source reads the item while it writes the text,
and so reads less of it when memory is refused. -/
def print (format : Bool) (item : ℕ) : HeapProgram (Option ℕ) := do
  let value ← reading fun h => readItem (2 * h.size) item
  match value with
  | none => return none
  | some value =>
      reading fun h =>
        match JsonPrinter.print (m.buffer h) (m.buffer h) format value with
        | .ok cells => allocateText m (CString.ofBytes cells.reduceOption)
        | .error .refused => refuse
        | .error .outside => giveUp

end JsonHeap

end Iperf3
