import LodelineManager.Foundation.PercentCoding
import Mathlib.Data.List.DropRight

/-!
# References in a page

The states that the URL parser goes through for a reference without a scheme, when the page it
stands on came over {lit}`http` or {lit}`https`.  How a host is read and what a reference with a
scheme of its own stands for are parameters.
-/

namespace LodelineManager
namespace Foundation
namespace UrlReference

inductive Scheme where
  | http
  | https

def Scheme.defaultPort : Scheme -> Nat
  | .http => 80
  | .https => 443

/-- A port is left out when it is the one of the scheme. -/
structure Url (host : Type) where
  scheme : Scheme
  username : List Char := []
  password : List Char := []
  host : host
  port : Option Nat := none
  path : List (List Char) := []
  query : Option (List Char) := none
  fragment : Option (List Char) := none

variable {host : Type}

def Url.origin (u : Url host) : Scheme × host × Option Nat := (u.scheme, u.host, u.port)

/-!
## Characters
-/

def isC0ControlOrSpace (c : Char) : Bool := decide (c.toNat <= 0x20)

def isTabOrNewline (c : Char) : Bool := decide (c ∈ ['\t', '\n', '\r'])

def isAlpha (c : Char) : Bool :=
  decide ('a'.toNat <= c.toNat ∧ c.toNat <= 'z'.toNat ∨ 'A'.toNat <= c.toNat ∧ c.toNat <= 'Z'.toNat)

def isDigit (c : Char) : Bool := decide ('0'.toNat <= c.toNat ∧ c.toNat <= '9'.toNat)

def isSlash (c : Char) : Bool := decide (c ∈ ['/', '\\'])

def isEnd (c : Char) : Bool := isSlash c || decide (c ∈ ['?', '#'])

def controlSet (c : Char) : Bool := decide (c.toNat <= 0x1F ∨ 0x7E < c.toNat)

def fragmentSet (c : Char) : Bool := controlSet c || decide (c ∈ " \"<>`".toList)

def querySet (c : Char) : Bool := controlSet c || decide (c ∈ " \"#<>".toList)

def specialQuerySet (c : Char) : Bool := querySet c || decide (c ∈ "'".toList)

def pathSet (c : Char) : Bool := querySet c || decide (c ∈ "?^`\x7b\x7d".toList)

def userinfoSet (c : Char) : Bool := pathSet c || decide (c ∈ "/:;=@[\\]^|".toList)

def escaped (c : Char) : List Char :=
  ((String.utf8EncodeChar c).flatMap (PercentCoding.encodeByte (fun _ => false))).map
    (fun b => Char.ofNat b.toNat)

def escape (set : Char -> Bool) (c : Char) : List Char := if set c then escaped c else [c]

/-!
## What follows the authority
-/

def fragmentState (s : List Char) : List Char := s.flatMap (escape fragmentSet)

def queryState : List Char -> List Char × Option (List Char)
  | [] => ([], none)
  | c :: rest =>
      if c = '#' then ([], some (fragmentState rest))
      else (escape specialQuerySet c ++ (queryState rest).1, (queryState rest).2)

structure Tail where
  path : List (List Char)
  query : Option (List Char) := none
  fragment : Option (List Char) := none

def lower (s : List Char) : List Char := s.map Char.toLower

def isSingleDot (s : List Char) : Bool := decide (lower s ∈ [".".toList, "%2e".toList])

def isDoubleDot (s : List Char) : Bool :=
  decide (lower s ∈ ["..".toList, ".%2e".toList, "%2e.".toList, "%2e%2e".toList])

def closeSegment (slash : Bool) (path : List (List Char)) (buffer : List Char) :
    List (List Char) :=
  if isDoubleDot buffer then path.dropLast ++ (if slash then [] else [[]])
  else if isSingleDot buffer then path ++ (if slash then [] else [[]])
  else path ++ [buffer]

def pathState (path : List (List Char)) (buffer : List Char) : List Char -> Tail
  | [] => { path := closeSegment false path buffer }
  | c :: rest =>
      if isSlash c then pathState (closeSegment true path buffer) [] rest
      else if c = '?' then
        { path := closeSegment false path buffer, query := some (queryState rest).1,
          fragment := (queryState rest).2 }
      else if c = '#' then
        { path := closeSegment false path buffer, fragment := some (fragmentState rest) }
      else pathState path (buffer ++ escape pathSet c) rest

def pathStartState : List Char -> Tail
  | [] => pathState [] [] []
  | c :: rest => if isSlash c then pathState [] [] rest else pathState [] [] (c :: rest)

def Url.withTail (u : Url host) (t : Tail) : Url host :=
  { u with path := t.path, query := t.query, fragment := t.fragment }

@[simp] theorem Url.origin_withTail (u : Url host) (t : Tail) : (u.withTail t).origin = u.origin :=
  rfl

/-!
## The authority
-/

structure Credentials where
  username : List Char := []
  password : List Char := []
  passwordTokenSeen : Bool := false

def Credentials.take (creds : Credentials) (buffer : List Char) : Credentials :=
  buffer.foldl (fun creds c =>
    if c = ':' && !creds.passwordTokenSeen then { creds with passwordTokenSeen := true }
    else if creds.passwordTokenSeen then
      { creds with password := creds.password ++ escape userinfoSet c }
    else { creds with username := creds.username ++ escape userinfoSet c }) creds

/-- What is left behind the last at sign, with what ends the authority, goes to the host
state. -/
def authorityState (atSignSeen : Bool) (creds : Credentials) (buffer : List Char) :
    List Char -> Option (Credentials × List Char)
  | [] => if atSignSeen && buffer.isEmpty then none else some (creds, buffer)
  | c :: rest =>
      if c = '@' then
        authorityState true
          (creds.take (if atSignSeen then "%40".toList ++ buffer else buffer)) [] rest
      else if isEnd c then
        if atSignSeen && buffer.isEmpty then none else some (creds, buffer ++ c :: rest)
      else authorityState atSignSeen creds (buffer ++ [c]) rest

def readPort (digits : List Char) : Nat :=
  digits.foldl (fun n c => 10 * n + (c.toNat - '0'.toNat)) 0

def closePort (scheme : Scheme) (digits : List Char) : Option (Option Nat) :=
  if digits.isEmpty then some none
  else if 65535 < readPort digits then none
  else if readPort digits = scheme.defaultPort then some none
  else some (some (readPort digits))

def portState (scheme : Scheme) (buffer : List Char) :
    List Char -> Option (Option Nat × List Char)
  | [] => (closePort scheme buffer).map (fun port => (port, []))
  | c :: rest =>
      if isDigit c then portState scheme (buffer ++ [c]) rest
      else if isEnd c then (closePort scheme buffer).map (fun port => (port, c :: rest))
      else none

section

variable (hostParser : List Char -> Option host)

def closeHost (buffer : List Char) : Option host :=
  if buffer.isEmpty then none else hostParser buffer

def bracket (insideBrackets : Bool) (c : Char) : Bool :=
  if c = '[' then true else if c = ']' then false else insideBrackets

def hostState (scheme : Scheme) (insideBrackets : Bool) (buffer : List Char) :
    List Char -> Option (host × Option Nat × List Char)
  | [] => (closeHost hostParser buffer).map (fun h => (h, none, []))
  | c :: rest =>
      if c = ':' && !insideBrackets then
        (closeHost hostParser buffer).bind (fun h =>
          (portState scheme [] rest).map (fun p => (h, p.1, p.2)))
      else if isEnd c then (closeHost hostParser buffer).map (fun h => (h, none, c :: rest))
      else hostState scheme (bracket insideBrackets c) (buffer ++ [c]) rest

def specialAuthorityIgnoreSlashesState (scheme : Scheme) (s : List Char) : Option (Url host) :=
  (authorityState false {} [] (s.dropWhile isSlash)).bind (fun a =>
    (hostState hostParser scheme false [] a.2).map (fun h =>
      Url.withTail
        { scheme := scheme, username := a.1.username, password := a.1.password, host := h.1,
          port := h.2.1 }
        (pathStartState h.2.2)))

def relativeSlashState (base : Url host) : List Char -> Option (Url host)
  | [] => some (base.withTail (pathState [] [] []))
  | c :: rest =>
      if isSlash c then specialAuthorityIgnoreSlashesState hostParser base.scheme rest
      else some (base.withTail (pathState [] [] (c :: rest)))

def relativeState (base : Url host) : List Char -> Option (Url host)
  | [] => some { base with fragment := none }
  | c :: rest =>
      if isSlash c then relativeSlashState hostParser base rest
      else if c = '?' then
        some { base with query := some (queryState rest).1, fragment := (queryState rest).2 }
      else if c = '#' then some { base with fragment := some (fragmentState rest) }
      else some (base.withTail (pathState base.path.dropLast [] (c :: rest)))

def cleaned (s : List Char) : List Char :=
  ((s.dropWhile isC0ControlOrSpace).rdropWhile isC0ControlOrSpace).filter
    (fun c => !isTabOrNewline c)

def resolve (schemed : List Char -> Option (Url host)) (base : Url host) (s : List Char) :
    Option (Url host) :=
  match cleaned s with
  | [] => relativeState hostParser base []
  | c :: rest =>
      if isAlpha c then schemed (c :: rest) else relativeState hostParser base (c :: rest)

end

/-!
## Reading an authority
-/

def authorityText (s : List Char) : List Char :=
  (s.dropWhile isSlash).takeWhile (fun c => !isEnd c)

def behindAt (s : List Char) : List Char := s.rtakeWhile (fun c => decide (c ≠ '@'))

def splitPort : Bool -> List Char -> List Char × Option (List Char)
  | _, [] => ([], none)
  | insideBrackets, c :: rest =>
      if c = ':' && !insideBrackets then ([], some rest)
      else
        (c :: (splitPort (bracket insideBrackets c) rest).1,
          (splitPort (bracket insideBrackets c) rest).2)

def hostText (authority : List Char) : List Char := (splitPort false (behindAt authority)).1

def portText (authority : List Char) : List Char :=
  ((splitPort false (behindAt authority)).2).getD []

/-- The authority is the host and the port of a page. -/
structure NamesOrigin (hostParser : List Char -> Option host) (base : Url host)
    (authority : List Char) : Prop where
  given : hostText authority ≠ []
  sameHost : hostParser (hostText authority) = some base.host
  digits : forall c, c ∈ portText authority -> isDigit c = true
  samePort : closePort base.scheme (portText authority) = some base.port

/-- Nothing follows, or what ends an authority. -/
def Ends (tail : List Char) : Prop := forall c, tail.head? = some c -> isEnd c = true

theorem not_of_isEnd {c : Char} (h : isEnd c = true) (P : Char -> Bool)
    (hall : ['/', '\\', '?', '#'].all (fun c => !P c) = true) : P c = false := by
  have hmem : c ∈ ['/', '\\', '?', '#'] := by
    rcases (Bool.or_eq_true _ _).mp h with hslash | hmark
    · exact List.mem_append_left ['?', '#'] (of_decide_eq_true hslash)
    · exact List.mem_append_right ['/', '\\'] (of_decide_eq_true hmark)
  exact (Bool.not_eq_true' _).mp (List.all_eq_true.mp hall c hmem)

theorem behindAt_append_at (front rest : List Char) :
    behindAt (front ++ '@' :: rest) = behindAt rest := by
  have hat : List.takeWhile (fun c => decide (c ≠ '@')) ('@' :: front.reverse) = [] := rfl
  unfold behindAt List.rtakeWhile
  rw [List.reverse_append, List.reverse_cons, List.append_assoc, List.singleton_append,
    List.takeWhile_append, hat, List.append_nil]
  split
  · rename_i hall
    rw [(List.takeWhile_prefix _).eq_of_length hall]
  · rfl

theorem behindAt_of_not_mem {s : List Char} (h : '@' ∉ s) : behindAt s = s := by
  unfold behindAt
  rw [List.rtakeWhile_eq_self_iff]
  intro c hc
  exact decide_eq_true (fun heq => h (heq ▸ hc))

section

variable {tail : List Char} (htail : Ends tail)

include htail

theorem authorityState_end (atSignSeen : Bool) (creds : Credentials) (buffer : List Char) :
    authorityState atSignSeen creds buffer tail =
      if atSignSeen && buffer.isEmpty then none else some (creds, buffer ++ tail) := by
  cases tail with
  | nil =>
      rw [List.append_nil]
      rfl
  | cons c rest =>
      have hend : isEnd c = true := htail c rfl
      have hat : c ≠ '@' :=
        of_decide_eq_false (not_of_isEnd hend (fun c => decide (c = '@')) (by decide))
      rw [authorityState, if_neg hat, if_pos hend]

theorem authorityState_append {front buffer : List Char}
    (hfront : forall c, c ∈ front -> isEnd c = false) (hbuffer : '@' ∉ buffer)
    (atSignSeen : Bool) (creds : Credentials) :
    (authorityState atSignSeen creds buffer (front ++ tail)).map Prod.snd =
      if (atSignSeen || decide ('@' ∈ front)) && (behindAt (buffer ++ front)).isEmpty then none
      else some (behindAt (buffer ++ front) ++ tail) := by
  induction front generalizing atSignSeen creds buffer with
  | nil =>
      rw [List.nil_append, authorityState_end htail, List.append_nil, behindAt_of_not_mem hbuffer,
        decide_eq_false List.not_mem_nil, Bool.or_false]
      split <;> rfl
  | cons c rest ih =>
      have hrest := fun c hc => hfront c (List.mem_cons_of_mem _ hc)
      rw [List.cons_append, authorityState]
      split
      · rename_i hat
        rw [ih hrest List.not_mem_nil, hat, behindAt_append_at, List.nil_append,
          decide_eq_true List.mem_cons_self, Bool.or_true, Bool.true_or]
      · rename_i hat
        have hmem : decide ('@' ∈ c :: rest) = decide ('@' ∈ rest) :=
          decide_eq_decide.mpr (List.mem_cons.trans (or_iff_right (Ne.symm hat)))
        have hbuffer' : '@' ∉ buffer ++ [c] := by
          rw [List.mem_append, List.mem_singleton]
          exact not_or.mpr ⟨hbuffer, Ne.symm hat⟩
        rw [if_neg (by rw [hfront c List.mem_cons_self]; decide), ih hrest hbuffer',
          List.append_assoc, List.singleton_append, hmem]

theorem portState_end (scheme : Scheme) (buffer : List Char) :
    portState scheme buffer tail = (closePort scheme buffer).map (fun port => (port, tail)) := by
  cases tail with
  | nil => rfl
  | cons c rest =>
      have hend : isEnd c = true := htail c rfl
      rw [portState, not_of_isEnd hend isDigit (by decide), if_pos hend]
      rfl

theorem portState_append (scheme : Scheme) {digits : List Char}
    (hdigits : forall c, c ∈ digits -> isEnd c = false) (buffer : List Char) :
    portState scheme buffer (digits ++ tail) =
      if digits.all isDigit then (closePort scheme (buffer ++ digits)).map (fun port => (port, tail))
      else none := by
  induction digits generalizing buffer with
  | nil =>
      rw [List.nil_append, List.append_nil, portState_end htail]
      rfl
  | cons c rest ih =>
      have hrest := fun c hc => hdigits c (List.mem_cons_of_mem _ hc)
      rw [List.cons_append, portState, List.all_cons]
      cases hdigit : isDigit c with
      | true =>
          rw [if_pos rfl, ih hrest, List.append_assoc, Bool.true_and]
          rfl
      | false =>
          rw [hdigits c List.mem_cons_self]
          rfl

theorem hostState_end (hostParser : List Char -> Option host) (scheme : Scheme)
    (insideBrackets : Bool) (buffer : List Char) :
    hostState hostParser scheme insideBrackets buffer tail =
      (closeHost hostParser buffer).map (fun h => (h, none, tail)) := by
  cases tail with
  | nil => rfl
  | cons c rest =>
      have hend : isEnd c = true := htail c rfl
      have hcolon : ¬ (c = ':' && !insideBrackets) = true := by
        rw [not_of_isEnd hend (fun c => decide (c = ':')) (by decide)]
        exact Bool.false_ne_true
      rw [hostState, if_neg hcolon, if_pos hend]

theorem hostState_append (hostParser : List Char -> Option host) (scheme : Scheme)
    {named : List Char} (hnamed : forall c, c ∈ named -> isEnd c = false) (insideBrackets : Bool)
    (buffer : List Char) :
    hostState hostParser scheme insideBrackets buffer (named ++ tail) =
      (closeHost hostParser (buffer ++ (splitPort insideBrackets named).1)).bind (fun h =>
        match (splitPort insideBrackets named).2 with
        | none => some (h, none, tail)
        | some digits => (portState scheme [] (digits ++ tail)).map (fun p => (h, p.1, p.2))) := by
  induction named generalizing insideBrackets buffer with
  | nil =>
      rw [List.nil_append, hostState_end htail]
      show _ = (closeHost hostParser (buffer ++ [])).bind (fun h => some (h, none, tail))
      rw [List.append_nil]
      exact Option.map_eq_bind
  | cons c rest ih =>
      have hrest := fun c hc => hnamed c (List.mem_cons_of_mem _ hc)
      rw [List.cons_append, hostState, splitPort]
      split
      · rw [List.append_nil]
      · rw [if_neg (by rw [hnamed c List.mem_cons_self]; decide), ih hrest, List.append_assoc]
        rfl

end

theorem authorityText_append (s : List Char) :
    exists tail, Ends tail ∧ s.dropWhile isSlash = authorityText s ++ tail := by
  refine ⟨(s.dropWhile isSlash).dropWhile (fun c => !isEnd c), ?_,
    List.takeWhile_append_dropWhile.symm⟩
  intro c hc
  have hnot := List.head?_dropWhile_not (fun c => !isEnd c) (s.dropWhile isSlash)
  rw [hc] at hnot
  exact (Bool.not_eq_false' _).mp hnot

theorem isEnd_of_mem_authorityText {s : List Char} {c : Char} (h : c ∈ authorityText s) :
    isEnd c = false := by
  have hnot : (!isEnd c) = true := @List.mem_takeWhile_imp _ (fun c => !isEnd c) _ _ h
  exact (Bool.not_eq_true' _).mp hnot

theorem mem_of_splitPort {insideBrackets : Bool} {named digits : List Char} {c : Char}
    (h : (splitPort insideBrackets named).2 = some digits) (hc : c ∈ digits) : c ∈ named := by
  induction named generalizing insideBrackets with
  | nil => cases h
  | cons x rest ih =>
      rw [splitPort] at h
      split at h
      · cases h
        exact List.mem_cons_of_mem _ hc
      · exact List.mem_cons_of_mem _ (ih h)

section

variable (hostParser : List Char -> Option host) (base : Url host)

theorem hostState_behindAt (scheme : Scheme) {authority tail : List Char} (htail : Ends tail)
    (hauthority : forall c, c ∈ authority -> isEnd c = false) :
    hostState hostParser scheme false [] (behindAt authority ++ tail) =
      (closeHost hostParser (hostText authority)).bind (fun h =>
        if (portText authority).all isDigit then
          (closePort scheme (portText authority)).map (fun port => (h, port, tail))
        else none) := by
  have hnamed : forall c, c ∈ behindAt authority -> isEnd c = false := fun c hc =>
    hauthority c ((List.rtakeWhile_suffix _ _).subset hc)
  rw [hostState_append htail hostParser scheme hnamed false [], List.nil_append]
  unfold hostText portText
  congr 1
  funext h
  cases hport : (splitPort false (behindAt authority)).2 with
  | none => rfl
  | some digits =>
      have hdigits : forall c, c ∈ digits -> isEnd c = false := fun c hc =>
        hnamed c (mem_of_splitPort hport hc)
      show (portState scheme [] (digits ++ tail)).map _ = if digits.all isDigit then _ else none
      rw [portState_append htail scheme hdigits, List.nil_append]
      split
      · rw [Option.map_map]
        rfl
      · rfl

theorem hostState_origin_iff {authority tail : List Char} (htail : Ends tail)
    (hauthority : forall c, c ∈ authority -> isEnd c = false) :
    (exists rest, hostState hostParser base.scheme false [] (behindAt authority ++ tail) =
      some (base.host, base.port, rest)) <-> NamesOrigin hostParser base authority := by
  rw [hostState_behindAt hostParser base.scheme htail hauthority]
  constructor
  · rintro ⟨rest, hsome⟩
    rcases Option.bind_eq_some_iff.mp hsome with ⟨h, hhost, hport⟩
    split at hport
    · rename_i hdigits
      rcases Option.map_eq_some_iff.mp hport with ⟨port, hclose, heq⟩
      cases heq
      unfold closeHost at hhost
      split at hhost
      · cases hhost
      · rename_i hgiven
        exact
          { given := fun hnil => hgiven (List.isEmpty_iff.mpr hnil), sameHost := hhost
            digits := List.all_eq_true.mp hdigits, samePort := hclose }
    · cases hport
  · intro hnames
    refine ⟨tail, ?_⟩
    unfold closeHost
    rw [if_neg (fun hempty => hnames.given (List.isEmpty_iff.mp hempty)), hnames.sameHost,
      Option.bind_some, if_pos (List.all_eq_true.mpr hnames.digits), hnames.samePort]
    rfl

theorem behindAt_of_named {authority : List Char} (h : NamesOrigin hostParser base authority) :
    behindAt authority ≠ [] := by
  intro hnil
  apply h.given
  unfold hostText
  rw [hnil]
  rfl

theorem specialAuthority_origin_iff (s : List Char) :
    (exists u, specialAuthorityIgnoreSlashesState hostParser base.scheme s = some u ∧
      u.origin = base.origin) <-> NamesOrigin hostParser base (authorityText s) := by
  rcases authorityText_append s with ⟨tail, htail, hs⟩
  have hauthority : forall c, c ∈ authorityText s -> isEnd c = false := fun c hc =>
    isEnd_of_mem_authorityText hc
  have hleft := authorityState_append htail hauthority List.not_mem_nil false {}
  rw [List.nil_append, ← hs] at hleft
  unfold specialAuthorityIgnoreSlashesState
  constructor
  · rintro ⟨u, hu, horigin⟩
    rcases Option.bind_eq_some_iff.mp hu with ⟨a, ha, hhost⟩
    rcases Option.map_eq_some_iff.mp hhost with ⟨h, hh, heq⟩
    have hinput : a.2 = behindAt (authorityText s) ++ tail := by
      rw [ha, Option.map_some] at hleft
      split at hleft
      · cases hleft
      · exact Option.some.inj hleft
    rw [← heq, Url.origin_withTail] at horigin
    injection horigin with _ hrest
    injection hrest with hsame hport
    rw [hinput] at hh
    apply (hostState_origin_iff hostParser base htail hauthority).mp
    exact ⟨h.2.2, by rw [hh, ← hsame, ← hport]⟩
  · intro hnames
    rcases (hostState_origin_iff hostParser base htail hauthority).mpr hnames with ⟨rest, hrest⟩
    have hne : (behindAt (authorityText s)).isEmpty = false :=
      List.isEmpty_eq_false_iff.mpr (behindAt_of_named hostParser base hnames)
    rw [hne, Bool.and_false] at hleft
    rcases Option.map_eq_some_iff.mp hleft with ⟨a, ha, hinput⟩
    rw [ha, Option.bind_some, hinput, hrest]
    exact ⟨_, rfl, Url.origin_withTail _ _⟩

end

/-!
## References that begin with a slash
-/

def tidied (s : List Char) : List Char :=
  (s.rdropWhile isC0ControlOrSpace).filter (fun c => !isTabOrNewline c)

theorem rdropWhile_cons {symbol : Type} (p : symbol -> Bool) (a : symbol) (s : List symbol) :
    (a :: s).rdropWhile p =
      if (s.rdropWhile p).isEmpty then [a].dropWhile p else a :: s.rdropWhile p := by
  unfold List.rdropWhile
  rw [List.reverse_cons, List.dropWhile_append, List.isEmpty_reverse]
  split
  · cases hp : p a with
    | true => rw [List.dropWhile_cons, if_pos hp]; rfl
    | false => rw [List.dropWhile_cons, if_neg (by rw [hp]; decide)]; rfl
  · exact List.reverse_append

theorem isC0ControlOrSpace_of_tab {c : Char} (h : isTabOrNewline c = true) :
    isC0ControlOrSpace c = true := by
  have hall : ['\t', '\n', '\r'].all isC0ControlOrSpace = true := by decide
  exact List.all_eq_true.mp hall c (of_decide_eq_true h)

theorem tidied_cons_tab {c : Char} (h : isTabOrNewline c = true) (s : List Char) :
    tidied (c :: s) = tidied s := by
  unfold tidied
  rw [rdropWhile_cons]
  split
  · rename_i hempty
    rw [List.isEmpty_iff.mp hempty, List.dropWhile_cons, if_pos (isC0ControlOrSpace_of_tab h)]
    rfl
  · rw [List.filter_cons, h]
    rfl

theorem tidied_dropWhile (s : List Char) : tidied (s.dropWhile isTabOrNewline) = tidied s := by
  induction s with
  | nil => rfl
  | cons c rest ih =>
      rw [List.dropWhile_cons]
      split
      · rename_i htab
        rw [tidied_cons_tab htab, ih]
      · rfl

theorem tidied_cons {c : Char} (h : isC0ControlOrSpace c = false) (s : List Char) :
    tidied (c :: s) = c :: tidied s := by
  have htab : isTabOrNewline c = false :=
    Bool.eq_false_of_not_eq_true (fun htab =>
      Bool.false_ne_true (h.symm.trans (isC0ControlOrSpace_of_tab htab)))
  unfold tidied
  rw [rdropWhile_cons]
  split
  · rename_i hempty
    rw [List.isEmpty_iff.mp hempty, List.dropWhile_cons, h]
    show [c].filter _ = [c]
    rw [List.filter_cons, htab]
    rfl
  · rw [List.filter_cons, htab]
    rfl

theorem head?_tidied_cons {c d : Char} {s : List Char} (h : isTabOrNewline c = false)
    (hd : (tidied (c :: s)).head? = some d) : d = c := by
  unfold tidied at hd
  rw [rdropWhile_cons] at hd
  split at hd
  · rw [List.dropWhile_cons] at hd
    split at hd
    · cases hd
    · rw [List.filter_cons, h] at hd
      exact (Option.some.inj hd).symm
  · rw [List.filter_cons, h] at hd
    exact (Option.some.inj hd).symm

theorem cleaned_slash (s : List Char) : cleaned ('/' :: s) = '/' :: tidied s :=
  tidied_cons (by decide) s

section

variable (hostParser : List Char -> Option host) (base : Url host)

theorem relativeSlash_of_head {s : List Char} (h : forall c, s.head? = some c -> isSlash c = false) :
    exists u, relativeSlashState hostParser base s = some u ∧ u.origin = base.origin := by
  cases s with
  | nil => exact ⟨_, rfl, Url.origin_withTail _ _⟩
  | cons c rest =>
      rw [relativeSlashState, h c rfl]
      exact ⟨_, rfl, Url.origin_withTail _ _⟩

theorem relativeSlash_origin_iff {c : Char} (hc : isTabOrNewline c = false) (rest : List Char) :
    (exists u, relativeSlashState hostParser base (tidied (c :: rest)) = some u ∧
        u.origin = base.origin) <->
      (isSlash c = true -> NamesOrigin hostParser base (authorityText (tidied rest))) := by
  cases hslash : isSlash c with
  | true =>
      have hall : ['/', '\\'].all (fun c => !isC0ControlOrSpace c) = true := by decide
      have hcontrol : isC0ControlOrSpace c = false :=
        (Bool.not_eq_true' _).mp (List.all_eq_true.mp hall c (of_decide_eq_true hslash))
      rw [tidied_cons hcontrol, relativeSlashState, if_pos hslash, specialAuthority_origin_iff]
      exact ⟨fun hnames _ => hnames, fun hall => hall rfl⟩
  | false =>
      apply iff_of_true
      · apply relativeSlash_of_head
        intro d hd
        rw [head?_tidied_cons hc hd, hslash]
      · intro h
        cases h

theorem resolve_slash_origin_iff (schemed : List Char -> Option (Url host)) (s : List Char) :
    (exists u, resolve hostParser schemed base ('/' :: s) = some u ∧ u.origin = base.origin) <->
      forall c rest, s.dropWhile isTabOrNewline = c :: rest -> isSlash c = true ->
        NamesOrigin hostParser base (authorityText (tidied rest)) := by
  have hresolve : resolve hostParser schemed base ('/' :: s) =
      relativeSlashState hostParser base (tidied s) := by
    unfold resolve
    rw [cleaned_slash]
    rfl
  rw [hresolve, ← tidied_dropWhile s]
  have hfirst := List.head?_dropWhile_not isTabOrNewline s
  generalize s.dropWhile isTabOrNewline = left at hfirst
  cases left with
  | nil =>
      apply iff_of_true (relativeSlash_of_head hostParser base (fun c hc => by cases hc))
      intro c rest heq
      cases heq
  | cons c rest =>
      rw [relativeSlash_origin_iff hostParser base hfirst]
      constructor
      · intro h c' rest' heq
        cases heq
        exact h
      · intro h
        exact h c rest rfl

end

end UrlReference
end Foundation
end LodelineManager
