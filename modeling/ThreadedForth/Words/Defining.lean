import ThreadedForth.Machine.Primitive

/-!
# Words that define and compile words

A definition begins with a codeword, the primitive that says how the cells after it are to be used.
The name of a definition is entered at the address of the codeword, hidden while the definition is
in progress, so that its old meaning can still be used inside it.
-/

namespace ThreadedForth.Words

open Effect

/-- Refuses to go on outside a definition. -/
def requireCompiling (word : String) : Effect Unit := do
  if (← examine State.mode) = .interpret then fail (.compileOnly word)

/-- Enters a name at `HERE` and makes it the latest definition. -/
def nameHere (name : String) (hidden : Bool) : Effect Unit := do
  let here ← examine State.here
  modify fun s => { s with dictionary := s.dictionary.define name here false hidden }
  writeVariable .latest here

/-- `:` name begins a definition. -/
def colon : Effect Unit := do
  let kernel ← examine State.kernel
  nameHere (← readToken) true
  discard <| compile (.native kernel.docol)
  setMode .compile

/-- `;` ends the definition and reveals it. -/
def semicolon : Effect Unit := do
  requireCompiling ";"
  let kernel ← examine State.kernel
  let latest ← examine State.latest
  discard <| compile (.reference kernel.exit)
  modify fun s =>
    { s with dictionary := (s.dictionary.setHidden? latest false).getD s.dictionary }
  setMode .interpret

/-- The complaint about an address where no entry begins. -/
def noWordAt (address : Address) : Cause := .unknownName s!"no word at {address}"

/-- `IMMEDIATE` marks the latest definition. -/
def immediate : Effect Unit := do
  let latest ← examine State.latest
  match (← get).dictionary.setImmediate? latest true with
  | some dictionary => modify ({ · with dictionary })
  | none => fail (noWordAt latest)

/-- `HIDDEN` ( address -- ) hides the word at an address or reveals it. -/
def toggleHidden : Effect Unit := do
  let address ← topInt
  match (← get).dictionary.toggleHidden? address with
  | some dictionary => modify ({ · with dictionary })
  | none => fail (noWordAt address)
  discard pop

/-- `HIDE` name hides a word or reveals it. -/
def hide : Effect Unit := do
  let name ← readToken
  let dictionary := (← get).dictionary
  match dictionary.find? name with
  | some entry =>
    modify ({ · with dictionary := (dictionary.toggleHidden? entry.address).getD dictionary })
  | none => fail (.unknownName name)

/-- `CREATE` name defines a word that pushes the address of the cells after its codeword. -/
def create : Effect Unit := do
  let kernel ← examine State.kernel
  nameHere (← readToken) false
  discard <| compile (.native kernel.dovar)

/-- `VARIABLE` name creates a word with one cell. -/
def variableWord : Effect Unit := do
  create
  discard <| compile (.literal (.int 0))

/-- `CONSTANT` name ( x -- ) defines a word that pushes `x`. -/
def constant : Effect Unit := do
  let kernel ← examine State.kernel
  discard peek
  let name ← readToken
  let v ← pop
  nameHere name false
  discard <| compile (.native kernel.docon)
  discard <| compile (.literal v)

/-- The codeword of created words. -/
def dovar : Effect Unit := do
  push (.int ((← get).ip + 1))
  resume

/-- The codeword of constants. -/
def docon : Effect Unit := do
  let address := (← get).ip + 1
  push (← examine (·.literalAt address))
  resume

/-- `LITERAL` ( x -- ) compiles code that pushes `x`. -/
def literal : Effect Unit := do
  requireCompiling "LITERAL"
  compilePush (← pop)

/-- `RECURSE` compiles a call of the definition in progress. -/
def recurse : Effect Unit := do
  requireCompiling "RECURSE"
  let latest ← examine State.latest
  discard <| compile (.reference latest)

/-- The address of the word that a name executes. -/
def addressOf (name : String) : Effect Address := do
  match (← get).dictionary.findVisible? name with
  | some entry => return entry.address
  | none => fail (.unknownName name)

/-- `'` name ( -- address ) -/
def tick : Effect Unit := do
  let name ← readToken
  push (.int (← addressOf name))

/-- `[']` name compiles code that pushes the address of a word. -/
def bracketTick : Effect Unit := do
  requireCompiling "[']"
  let name ← readToken
  compilePush (.int (← addressOf name))

/-- `FORGET` name drops all entries of a name.  Their cells stay. -/
def forget : Effect Unit := do
  let name ← readToken
  match (← get).dictionary.remove? name with
  | some dictionary => modify ({ · with dictionary })
  | none => fail (.unknownName name)

end ThreadedForth.Words
