import LeaveCli.Lib.Text

/-!
# XML property lists

The documented reading of a property list in XML: the characters XML allows, its line ends as line
feeds, the text as tags and character data with the predefined entities, and the elements as a
value. `scan_escape` undoes the escaping of character data whatever the text is, `normalize_escape`
says what the line ends make of it.

Comments, references by number, and the kinds `date`, `data`, `integer` and `real` are left out.
-/

namespace Lib.Plist

inductive Value
  | string (text : Str)
  | boolean (value : Bool)
  | array (items : List Value)
  | dict (entries : List (Str × Value))

def Value.text : Value → Option Str
  | .string text => some text
  | _ => none

def Value.texts : Value → Option (List Str)
  | .array items => items.mapM Value.text
  | _ => none

def Value.field (key : Str) : Value → Option Value
  | .dict entries => entries.lookup key
  | _ => none

theorem texts_strings (items : List Str) :
    (Value.array (items.map .string)).texts = some items := by
  show (items.map Value.string).mapM Value.text = some items
  induction items with
  | nil => rfl
  | cons item items ih =>
    rw [List.map_cons, List.mapM_cons, ih]
    rfl

/-! ## Characters -/

/-- The production `Char`, which leaves out most controls; surrogates are no characters here. -/
def isXmlChar (c : Char) : Bool :=
  c = '\t' || c = '\n' || c = '\r' || (0x20 ≤ c.toNat && c.toNat ≠ 0xfffe && c.toNat ≠ 0xffff)

/-- Every line end is one line feed. -/
def normalize : Str → Str
  | [] => []
  | c :: s =>
    if c = '\r' then if s.head? = some '\n' then normalize s else '\n' :: normalize s
    else c :: normalize s

/-! ## Tags and character data -/

inductive Token
  | start (name : Str)
  | finish (name : Str)
  | chars (text : Str)
deriving DecidableEq

/-- Where the reader is, with the character data it has so far. -/
inductive TextState
  | content (text : Str)
  /-- Behind an ampersand. -/
  | reference (text name : Str)
  /-- Inside the angle brackets. -/
  | tag (markup : Str)
deriving DecidableEq

def entity (name : Str) : Option Char :=
  if name = "amp" then some '&'
  else if name = "lt" then some '<'
  else if name = "gt" then some '>'
  else if name = "quot" then some '"'
  else if name = "apos" then some '\''
  else none

def isBlank (c : Char) : Bool := c = ' ' || c = '\t' || c = '\n' || c = '\r'

/-- The name an element's tag begins with. -/
def tagName (markup : Str) : Str := markup.takeWhile fun c => !isBlank c && c ≠ '/'

/-- The tokens of a tag: the declaration and the document type have none, an empty element has
two. -/
def tagTokens (markup : Str) : Option (List Token) :=
  match markup with
  | [] => none
  | c :: name =>
    if c = '?' then if markup.getLast? = some '?' then some [] else none
    else if c = '!' then some []
    else if c = '/' then some [.finish (tagName name)]
    else if markup.getLast? = some '/' then some [.start (tagName markup), .finish (tagName markup)]
    else some [.start (tagName markup)]

/-- Character data is a token unless there is none. -/
def flush (text : Str) : List Token := if text = [] then [] else [.chars text]

def advance : TextState → Char → Option (List Token × TextState)
  | .content text, c =>
    if c = '<' then some (flush text, .tag [])
    else if c = '&' then some ([], .reference text [])
    else if c = '>' ∧ ("]]" : Str) <:+ text then none
    else some ([], .content (text ++ [c]))
  | .reference text name, c =>
    if c = ';' then (entity name).map fun d => ([], .content (text ++ [d]))
    else some ([], .reference text (name ++ [c]))
  | .tag markup, c =>
    if c = '>' then (tagTokens markup).map fun found => (found, .content [])
    else some ([], .tag (markup ++ [c]))

/-- The tokens of a text, and where it ends. -/
def scan (state : TextState) : Str → Option (List Token × TextState)
  | [] => some ([], state)
  | c :: s => do
    let (found, state) ← advance state c
    let (more, state) ← scan state s
    some (found ++ more, state)

def tokens (s : Str) : Option (List Token) :=
  match scan (.content []) s with
  | some (found, .content text) => some (found ++ flush text)
  | _ => none

/-! ## Elements -/

/-- An element that is open, with what it has so far. -/
inductive Element
  | plist (value : Option Value)
  | array (items : List Value)
  | dict (entries : List (Str × Value)) (key : Option Str)
  | key (text : Str)
  | string (text : Str)
  | boolean (value : Bool)
  /-- The property list, behind its end. -/
  | done (value : Value)

/-- A value goes to the element around it. -/
def place (value : Value) : List Element → Option (List Element)
  | .plist none :: more => some (.plist (some value) :: more)
  | .array items :: more => some (.array (items ++ [value]) :: more)
  | .dict entries (some key) :: more => some (.dict (entries ++ [(key, value)]) none :: more)
  | _ => none

/-- Keys are written in dictionaries only, and values are not written there without one. -/
def opening (name : Str) (stack : List Element) : Option (List Element) :=
  if name = "plist" then if stack.isEmpty then some [.plist none] else none
  else if stack.isEmpty then none
  else if name = "array" then some (.array [] :: stack)
  else if name = "dict" then some (.dict [] none :: stack)
  else if name = "key" then some (.key [] :: stack)
  else if name = "string" then some (.string [] :: stack)
  else if name = "true" then some (.boolean true :: stack)
  else if name = "false" then some (.boolean false :: stack)
  else none

def closing (name : Str) : List Element → Option (List Element)
  | [.plist (some value)] => if name = "plist" then some [.done value] else none
  | .array items :: more => if name = "array" then place (.array items) more else none
  | .dict entries none :: more => if name = "dict" then place (.dict entries) more else none
  | .key text :: .dict entries none :: more =>
    if name = "key" then some (.dict entries (some text) :: more) else none
  | .string text :: more => if name = "string" then place (.string text) more else none
  | .boolean value :: more =>
    if name = (if value then "true" else "false") then place (.boolean value) more else none
  | _ => none

def element (stack : List Element) : Token → Option (List Element)
  | .start name => opening name stack
  | .finish name => closing name stack
  | .chars text =>
    match stack with
    | .key front :: more => some (.key (front ++ text) :: more)
    | .string front :: more => some (.string (front ++ text) :: more)
    | _ => if text.all isBlank then some stack else none

/-- The value of a property list. -/
def read (s : Str) : Option Value := do
  guard (s.all isXmlChar)
  let found ← tokens (normalize s)
  match ← found.foldlM element [] with
  | [.done value] => some value
  | _ => none

/-! ## Line ends -/

theorem normalize_append_of_notMem {a : Str} (h : '\r' ∉ a) (b : Str) :
    normalize (a ++ b) = a ++ normalize b := by
  induction a with
  | nil => rfl
  | cons c a ih =>
    obtain ⟨hc, ha⟩ := not_or.1 (mt List.mem_cons.2 h)
    rw [List.cons_append, normalize, if_neg (Ne.symm hc), ih ha, List.cons_append]

theorem normalize_append {b : Str} (hb : b.head? ≠ some '\n') (a : Str) :
    normalize (a ++ b) = normalize a ++ normalize b := by
  induction a with
  | nil => rfl
  | cons c a ih =>
    have hhead : (a ++ b).head? = some '\n' ↔ a.head? = some '\n' := by
      cases a with
      | nil => exact iff_of_false hb (by simp)
      | cons d a => exact Iff.rfl
    rw [List.cons_append, normalize, ih, normalize, if_congr hhead rfl rfl]
    split_ifs
    · rfl
    · rfl
    · rfl

theorem notMem_normalize (s : Str) : '\r' ∉ normalize s := by
  induction s with
  | nil => exact List.not_mem_nil
  | cons c s ih =>
    rw [normalize]
    split_ifs with hc
    · exact ih
    · exact List.not_mem_cons_of_ne_of_not_mem (by decide) ih
    · exact List.not_mem_cons_of_ne_of_not_mem (Ne.symm hc) ih

/-- A text with other line ends is not what it was. -/
theorem normalize_eq_self_iff {s : Str} : normalize s = s ↔ '\r' ∉ s := by
  refine ⟨fun h => h ▸ notMem_normalize s, fun h => ?_⟩
  have hself := normalize_append_of_notMem h []
  rwa [List.append_nil, normalize, List.append_nil] at hself

theorem map_normalize_eq_self_iff {items : List Str} :
    items.map normalize = items ↔ ∀ s ∈ items, '\r' ∉ s := by
  have hself : items.map normalize = items.map id ↔ ∀ s ∈ items, normalize s = s :=
    List.map_eq_map_iff
  rw [List.map_id] at hself
  exact hself.trans (forall₂_congr fun s _ => normalize_eq_self_iff)

/-- Text that comes through a document as it is. -/
def Sound (s : Str) : Prop := s.all isXmlChar = true ∧ '\r' ∉ s

/-! ## Escaping -/

def escapeChar (c : Char) : Str :=
  if c = '&' then "&amp;"
  else if c = '<' then "&lt;"
  else if c = '>' then "&gt;"
  else if c = '"' then "&quot;"
  else if c = '\'' then "&apos;"
  else [c]

def escape (s : Str) : Str := s.flatMap escapeChar

theorem all_escape (s : Str) : (escape s).all isXmlChar = s.all isXmlChar := by
  induction s with
  | nil => rfl
  | cons c s ih =>
    have hchar : (escapeChar c).all isXmlChar = isXmlChar c := by
      unfold escapeChar
      split_ifs with hand hless hgreater hquote hsingle
      · subst hand; decide
      · subst hless; decide
      · subst hgreater; decide
      · subst hquote; decide
      · subst hsingle; decide
      · simp
    rw [escape, List.flatMap_cons, List.all_append, hchar, List.all_cons]
    exact congrArg (isXmlChar c && ·) ih

theorem scan_append {state state' : TextState} {a : Str} {found : List Token}
    (h : scan state a = some (found, state')) (b : Str) :
    scan state (a ++ b) = (scan state' b).map fun p => (found ++ p.1, p.2) := by
  induction a generalizing state found with
  | nil =>
    cases h
    exact Option.map_id'.symm
  | cons c a ih =>
    obtain ⟨⟨front, next⟩, hfront, h⟩ := Option.bind_eq_some_iff.1 h
    obtain ⟨⟨more, last⟩, hmore, h⟩ := Option.bind_eq_some_iff.1 h
    cases h
    rw [List.cons_append, scan, hfront]
    show (scan next (a ++ b)).bind _ = _
    rw [ih hmore]
    cases scan state' b with
    | none => rfl
    | some p => simp

theorem scan_escape (text s : Str) :
    scan (.content text) (escape s) = some ([], .content (text ++ s)) := by
  induction s generalizing text with
  | nil => rw [List.append_nil]; rfl
  | cons c s ih =>
    have hchar : scan (.content text) (escapeChar c) = some ([], .content (text ++ [c])) := by
      unfold escapeChar
      split_ifs with hand hless hgreater hquote hsingle
      · subst hand; rfl
      · subst hless; rfl
      · subst hgreater; rfl
      · subst hquote; rfl
      · subst hsingle; rfl
      · simp [scan, advance, hand, hless, hgreater]
    rw [escape, List.flatMap_cons, scan_append hchar]
    show (scan _ (escape s)).map _ = _
    rw [ih, List.append_assoc, List.singleton_append]
    rfl

theorem notMem_escapeChar {c : Char} (hc : c ≠ '\r') : '\r' ∉ escapeChar c := by
  unfold escapeChar
  split_ifs
  all_goals first | decide | exact fun h => hc (List.mem_singleton.1 h).symm

theorem head_escape (s : Str) : (escape s).head? = some '\n' ↔ s.head? = some '\n' := by
  cases s with
  | nil => exact Iff.rfl
  | cons c s =>
    rw [escape, List.flatMap_cons, escapeChar]
    split_ifs
    all_goals first | exact Iff.rfl | exact iff_of_false (by simp) (by simp [*])

/-- Escaping leaves line ends as they are. -/
theorem normalize_escape (s : Str) : normalize (escape s) = escape (normalize s) := by
  induction s with
  | nil => rfl
  | cons c s ih =>
    have hcons (c : Char) (s : Str) : escape (c :: s) = escapeChar c ++ escape s := rfl
    by_cases hc : c = '\r'
    · subst hc
      have hreturn : escape ('\r' :: s) = '\r' :: escape s := rfl
      rw [hreturn, normalize, if_pos rfl, if_congr (head_escape s) rfl rfl, normalize, if_pos rfl,
        ih]
      split_ifs
      · rfl
      · rfl
    · rw [hcons, normalize_append_of_notMem (notMem_escapeChar hc), ih, normalize, if_neg hc, hcons]

/-! ## Elements of text -/

def tag (markup : Str) : Str := '<' :: (markup ++ ['>'])

def stringElement (s : Str) : Str := tag "string" ++ escape s ++ tag "/string"

def stringTokens (s : Str) : List Token := .start "string" :: flush s ++ [.finish "string"]

theorem scan_markup {markup : Str} (h : '>' ∉ markup) (front : Str) :
    scan (.tag front) (markup ++ ['>']) =
      (tagTokens (front ++ markup)).map fun found => (found, .content []) := by
  induction markup generalizing front with
  | nil =>
    rw [List.append_nil, List.nil_append, scan, advance, if_pos rfl]
    cases tagTokens front with
    | none => rfl
    | some found => exact congrArg some (congrArg (·, _) (List.append_nil found))
  | cons c markup ih =>
    obtain ⟨hc, hmarkup⟩ := not_or.1 (mt List.mem_cons.2 h)
    rw [List.cons_append, scan, advance, if_neg (Ne.symm hc)]
    show (scan _ (markup ++ ['>'])).bind _ = _
    rw [ih hmarkup, List.append_assoc, List.singleton_append]
    cases tagTokens (front ++ c :: markup) with
    | none => rfl
    | some found => rfl

theorem scan_tag {markup : Str} {found : List Token} (h : '>' ∉ markup)
    (hfound : tagTokens markup = some found) (text : Str) :
    scan (.content text) (tag markup) = some (flush text ++ found, .content []) := by
  rw [tag, scan, advance, if_pos rfl]
  show (scan (.tag []) (markup ++ ['>'])).bind _ = _
  rw [scan_markup h, List.nil_append, hfound]
  rfl

theorem scan_stringElement (text s : Str) :
    scan (.content text) (stringElement s) = some (flush text ++ stringTokens s, .content []) := by
  have hstart : scan (.content text) (tag "string") =
      some (flush text ++ [.start "string"], .content []) :=
    scan_tag (by decide) (by decide) text
  have hfinish : scan (.content s) (tag "/string") =
      some (flush s ++ [.finish "string"], .content []) :=
    scan_tag (by decide) (by decide) s
  rw [stringElement, List.append_assoc, scan_append hstart, scan_append (scan_escape [] s),
    List.nil_append, hfinish]
  simp [stringTokens]

theorem foldlM_flush {text : Str} {more : List Element} (front : Str) :
    (flush text).foldlM element (.string front :: more) =
      some (.string (front ++ text) :: more) := by
  unfold flush
  split_ifs with htext
  · rw [htext, List.append_nil]
    rfl
  · rfl

theorem foldlM_stringTokens (items : List Value) (more : List Element) (s : Str) :
    (stringTokens s).foldlM element (.array items :: more) =
      some (.array (items ++ [.string s]) :: more) := by
  rw [stringTokens, List.foldlM_append]
  show ((flush s).foldlM element (.string [] :: .array items :: more)).bind _ = _
  rw [foldlM_flush]
  rfl

/-- Texts on lines of their own, and what is behind the last. -/
def stringLines (blank : Str) (items : List Str) : Str :=
  items.flatMap fun item => blank ++ stringElement item

def lineTokens (blank : Str) (items : List Str) : List Token :=
  items.flatMap fun item => flush blank ++ stringTokens item

theorem scan_stringLines {blank : Str} (hblank : ∀ c ∈ blank, isBlank c = true)
    (items : List Str) :
    scan (.content []) (stringLines blank items) =
      some (lineTokens blank items, .content []) := by
  have hscan (text : Str) (s : Str) (h : ∀ c ∈ s, isBlank c = true) :
      scan (.content text) s = some ([], .content (text ++ s)) := by
    induction s generalizing text with
    | nil => rw [List.append_nil]; rfl
    | cons c s ih =>
      obtain ⟨hc, hs⟩ := List.forall_mem_cons.1 h
      have hne {d : Char} (hd : isBlank d = false) : c ≠ d := by
        rintro rfl
        rw [hc] at hd
        cases hd
      rw [scan, advance, if_neg (hne (by decide)), if_neg (hne (by decide)),
        if_neg fun h => hne (by decide) h.1]
      show (scan _ s).bind _ = _
      rw [ih _ hs, List.append_assoc]
      rfl
  induction items with
  | nil => rfl
  | cons item items ih =>
    rw [stringLines, List.flatMap_cons, List.append_assoc, scan_append (hscan [] blank hblank),
      List.nil_append, scan_append (scan_stringElement blank item)]
    show Option.map _ (Option.map _ (scan _ (stringLines blank items))) = _
    rw [ih]
    rfl

theorem foldlM_lineTokens {blank : Str} (hblank : ∀ c ∈ blank, isBlank c = true)
    (values : List Value) (more : List Element) (items : List Str) :
    (lineTokens blank items).foldlM element (.array values :: more) =
      some (.array (values ++ items.map .string) :: more) := by
  have hflush (values : List Value) : (flush blank).foldlM element (.array values :: more) =
      some (.array values :: more) := by
    unfold flush
    split_ifs with htext
    · rfl
    · show (if blank.all isBlank then _ else none).bind _ = _
      rw [if_pos (List.all_eq_true.2 hblank)]
      rfl
  induction items generalizing values with
  | nil => rw [List.map_nil, List.append_nil]; rfl
  | cons item items ih =>
    rw [lineTokens, List.flatMap_cons, List.foldlM_append, List.foldlM_append, hflush _]
    show ((stringTokens item).foldlM element (.array values :: more)).bind
      (fun stack => (lineTokens blank items).foldlM element stack) = _
    rw [foldlM_stringTokens, Option.bind_some, ih, List.append_assoc]
    rfl

theorem all_stringLines {blank : Str} (hblank : ∀ c ∈ blank, isXmlChar c = true)
    (items : List Str) :
    (stringLines blank items).all isXmlChar = items.all fun item => item.all isXmlChar := by
  have htag : (tag "string").all isXmlChar = true ∧ (tag "/string").all isXmlChar = true := by
    decide
  induction items with
  | nil => rfl
  | cons item items ih =>
    rw [stringLines, List.flatMap_cons, List.all_append, List.all_append, stringElement,
      List.all_append, List.all_append, all_escape, List.all_eq_true.2 hblank, htag.1, htag.2,
      Bool.true_and, Bool.true_and, Bool.and_true, List.all_cons]
    exact congrArg _ ih

theorem normalize_stringLines {blank : Str} (hblank : '\r' ∉ blank) (items : List Str)
    (rest : Str) :
    normalize (stringLines blank items ++ rest) =
      stringLines blank (items.map normalize) ++ normalize rest := by
  induction items with
  | nil => rfl
  | cons item items ih =>
    have hitem : normalize (escape item ++ (tag "/string" ++ (stringLines blank items ++ rest))) =
        escape (normalize item) ++ (tag "/string" ++
          (stringLines blank (items.map normalize) ++ normalize rest)) := by
      rw [normalize_append (by simp [tag]), normalize_escape,
        normalize_append_of_notMem (by decide), ih]
    have hcons (item : Str) (items : List Str) (rest : Str) :
        stringLines blank (item :: items) ++ rest = blank ++ (tag "string" ++ (escape item ++
          (tag "/string" ++ (stringLines blank items ++ rest)))) := by
      simp [stringLines, stringElement]
    rw [hcons, normalize_append_of_notMem hblank, normalize_append_of_notMem (by decide), hitem,
      List.map_cons, hcons]

/-- A file with one list of texts, read: what is around the list is known. -/
theorem read_stringLines {front blank back after : Str} {opened closed : List Token}
    {stack : List Element} (value : List Value → Value)
    (hchars : ∀ c ∈ front ++ blank ++ back, isXmlChar c = true ∧ c ≠ '\r')
    (hblank : ∀ c ∈ blank, isBlank c = true)
    (hfront : scan (.content []) front = some (opened, .content []))
    (hback : scan (.content []) back = some (closed, .content after))
    (hopened : opened.foldlM element [] = some (.array [] :: stack))
    (hclosed : ∀ items, (closed ++ flush after).foldlM element (.array items :: stack) =
      some [.done (value items)])
    (items : List Str) :
    read (front ++ stringLines blank items ++ back) =
      if items.all (fun item => item.all isXmlChar) then
        some (value ((items.map normalize).map .string)) else none := by
  obtain ⟨hfrontBlank, hbackChars⟩ := List.forall_mem_append.1 hchars
  obtain ⟨hfrontChars, hblankChars⟩ := List.forall_mem_append.1 hfrontBlank
  have hall {s : Str} (h : ∀ c ∈ s, isXmlChar c = true ∧ c ≠ '\r') : s.all isXmlChar = true :=
    List.all_eq_true.2 fun c hc => (h c hc).1
  have hreturn {s : Str} (h : ∀ c ∈ s, isXmlChar c = true ∧ c ≠ '\r') : '\r' ∉ s :=
    fun hmem => (h _ hmem).2 rfl
  have hguard : (front ++ stringLines blank items ++ back).all isXmlChar =
      items.all fun item => item.all isXmlChar := by
    rw [List.all_append, List.all_append, hall hfrontChars, hall hbackChars, Bool.true_and,
      Bool.and_true]
    exact all_stringLines (fun c hc => (hblankChars c hc).1) items
  have hnormal : normalize (front ++ stringLines blank items ++ back) =
      front ++ (stringLines blank (items.map normalize) ++ back) := by
    rw [List.append_assoc, normalize_append_of_notMem (hreturn hfrontChars),
      normalize_stringLines (hreturn hblankChars), normalize_eq_self_iff.2 (hreturn hbackChars)]
  have htokens : tokens (front ++ (stringLines blank (items.map normalize) ++ back)) =
      some (opened ++ (lineTokens blank (items.map normalize) ++ (closed ++ flush after))) := by
    rw [tokens, scan_append hfront, scan_append (scan_stringLines hblank _), hback]
    simp
  have hfold : (opened ++ (lineTokens blank (items.map normalize) ++
      (closed ++ flush after))).foldlM element [] =
        some [.done (value ((items.map normalize).map .string))] := by
    rw [List.foldlM_append, hopened, Option.bind_eq_bind, Option.bind_some, List.foldlM_append,
      foldlM_lineTokens hblank, Option.bind_eq_bind, Option.bind_some]
    exact hclosed _
  rw [read, hguard, hnormal]
  cases items.all fun item => item.all isXmlChar with
  | false => rfl
  | true =>
    show (tokens _).bind _ = _
    rw [htokens, Option.bind_some, hfold]
    rfl

end Lib.Plist
