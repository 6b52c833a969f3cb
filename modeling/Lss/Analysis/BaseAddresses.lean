import Lss.Model.GateIngest
import Lss.Model.SetupWizard

/-!
# The base address of an engine

The address a person types is cut into a scheme, a host, a port and a path, and put together
again. What comes out is a base address, and comes out of itself, exactly when the host is a name
or an address in brackets and no second cut would find anything: one `/v1` is cut off behind the
slashes at the end, so another one, or a slash in front of it, stays.
-/

set_option autoImplicit false

namespace Lss.Analysis.BaseAddresses

open Lss.Model Lss.Model.Setup Lss.Library Lss.Library.Lines

/-! ## Addresses in parts -/

/-- How a port stands in an address. -/
def portText : Option ℕ → List Char
  | none => []
  | some n => ':' :: Nat.toDigits 10 n

/-- The characters of an address behind its scheme. -/
def behindScheme (host : List Char) (port : Option ℕ) (path : List Char) : List Char :=
  host ++ portText port ++ path

/-- An address put together. -/
def address (scheme : String) (host : List Char) (port : Option ℕ) (path : List Char) : String :=
  String.ofList (scheme.toList ++ "://".toList ++ behindScheme host port path)

/-- The host that is written for one: this machine by its number. -/
def writtenHost (host : List Char) : List Char :=
  if lower host = "localhost".toList then "127.0.0.1".toList else host

/-- The port that is read, when there is one to be read. -/
def readPort : Option (List Char) → Option (Option ℕ)
  | none => some none
  | some p => ((parseCount (2 ^ 32) p).filter fun n => 1 ≤ n ∧ n ≤ 65535).map some

theorem finish_eq_ok {scheme : String} {host path : List Char} {port : Option (List Char)}
    {r : String} : finish scheme host port path = .ok r ↔
      (host ≠ [] ∧ host.all hostChar = true) ∧
        ∃ n, readPort port = some n ∧ r = address scheme (writtenHost host) n path := by
  have text : ∀ h : List Char, scheme ++ "://" ++ String.ofList (h ++ path) =
      address scheme h none path := by
    intro h
    rw [← String.toList_inj]
    simp [address, behindScheme, portText]
  have text_port : ∀ (h : List Char) (n : ℕ), scheme ++ "://" ++ String.ofList h ++ ":" ++
      toString n ++ String.ofList path = address scheme h (some n) path := by
    intro h n
    rw [← String.toList_inj, Nat.toString_eq_ofList_toDigits]
    simp [address, behindScheme, portText]
  unfold finish
  by_cases empty : host = []
  · simp [empty]
  by_cases chars : host.all hostChar = true
  · rw [if_neg empty, if_neg (by simpa using chars)]
    simp only [empty, chars, ne_eq, not_false_eq_true, true_and]
    cases port with
    | none =>
        simp only [readPort, text, Option.some.injEq, exists_eq_left', Except.ok.injEq]
        exact eq_comm
    | some p =>
        simp only [readPort]
        cases (parseCount (2 ^ 32) p).filter fun n => 1 ≤ n ∧ n ≤ 65535 with
        | none => simp
        | some n =>
            simp only [text_port, Option.map_some, Option.some.injEq, exists_eq_left',
              Except.ok.injEq]
            exact eq_comm
  · rw [if_neg empty, if_pos (by simpa using chars)]
    simp [chars]

/-- What stands before the path, cut into a host and a port. -/
def cutHost (hostport : List Char) : Option (List Char × Option (List Char)) :=
  if hostport.all Char.isDigit then some ("127.0.0.1".toList, some hostport)
  else
    match hostport with
    | '[' :: inner =>
      (splitOnce [']'] inner).bind fun p =>
        if p.2 ≠ [] ∧ p.2.head? ≠ some ':' then none
        else some ('[' :: p.1 ++ [']'], if p.2 = [] then none else some p.2.tail)
    | _ =>
      match rsplitOnce ':' hostport with
      | some (h, p) => some (h, some p)
      | none => some (hostport, none)

/-- The rest of a cut that is right is what is put together. -/
theorem cutHost_finish {scheme : String} {hostport path : List Char} {r : String} :
    (∃ host port, cutHost hostport = some (host, port) ∧ finish scheme host port path = .ok r) ↔
      (if hostport.all Char.isDigit then finish scheme "127.0.0.1".toList (some hostport) path
      else
        match hostport with
        | '[' :: inner =>
          match splitOnce [']'] inner with
          | none =>
            .error ("'" ++ String.ofList hostport ++ "': an IPv6 address needs its closing ]")
          | some (h, after) =>
            if after ≠ [] ∧ after.head? ≠ some ':' then
              .error ("'" ++ String.ofList hostport ++ "': expected :port after the ]")
            else finish scheme ('[' :: h ++ [']']) (if after = [] then none else some after.tail) path
        | _ =>
          match rsplitOnce ':' hostport with
          | some (h, p) => finish scheme h (some p) path
          | none => finish scheme hostport none path) = .ok r := by
  have one : ∀ (host : List Char) (port : Option (List Char)),
      (∃ h p, some (host, port) = some (h, p) ∧ finish scheme h p path = .ok r) ↔
        finish scheme host port path = .ok r := by
    intro host port
    simp only [Option.some.injEq, Prod.mk.injEq]
    constructor
    · rintro ⟨_, _, ⟨rfl, rfl⟩, h⟩
      exact h
    · intro h
      exact ⟨_, _, ⟨rfl, rfl⟩, h⟩
  unfold cutHost
  split
  · exact one _ _
  split
  · rename_i inner _
    cases splitOnce [']'] inner with
    | none => simp
    | some p =>
        simp only [Option.bind_some]
        split
        · simp
        · exact one _ _
  · split
    · exact one _ _
    · exact one _ _

/-- What the address says once the blanks around it are cut off. -/
theorem normalizeUrl_eq_ok {input r : String} :
    normalizeUrl input = .ok r ↔
      ((trim input).toList ≠ [] ∧ (trim input).toList.any isBlank = false) ∧
        ∃ scheme rest, splitScheme (trim input).toList = .ok (scheme, rest) ∧
          ∃ host port, cutHost ((cutPath rest).1.dropWhile (· = ':')) = some (host, port) ∧
            finish scheme host port (cutPath rest).2 = .ok r := by
  unfold normalizeUrl
  generalize (trim input).toList = t
  dsimp only
  by_cases empty : t = []
  · simp [empty]
  by_cases blank : t.any isBlank = true
  · rw [if_neg empty, if_pos blank]
    simp [blank]
  rw [if_neg empty, if_neg blank]
  simp only [empty, blank, ne_eq, not_false_eq_true, true_and, cutHost_finish]
  cases splitScheme t with
  | error e =>
      constructor
      · intro h
        cases h
      · rintro ⟨_, _, h, -⟩
        cases h
  | ok p =>
      obtain ⟨scheme, rest⟩ := p
      simp only [bind, Except.bind, Except.ok.injEq, Prod.mk.injEq]
      constructor
      · intro h
        exact ⟨scheme, rest, ⟨rfl, rfl⟩, h⟩
      · rintro ⟨_, _, ⟨rfl, rfl⟩, h⟩
        exact h

/-! ## The cuts -/

theorem splitOnce_bracket {t h after : List Char} :
    splitOnce [']'] t = some (h, after) ↔ t = h ++ ']' :: after ∧ ']' ∉ h := by
  induction t generalizing h after with
  | nil => simp [splitOnce]
  | cons c t ih =>
      by_cases here : c = ']'
      · subst here
        have first : ([']'] : List Char) <+: ']' :: t := by simp
        simp only [splitOnce, if_pos first, Option.some.injEq, Prod.mk.injEq]
        constructor
        · rintro ⟨rfl, rfl⟩
          simp
        · rintro ⟨split, outside⟩
          cases h with
          | nil =>
              simp only [List.nil_append, List.cons.injEq, true_and] at split
              exact ⟨rfl, by simp [split]⟩
          | cons d h =>
              simp only [List.cons_append, List.cons.injEq] at split
              exact absurd (split.1 ▸ List.mem_cons_self) outside
      · have later : ¬(([']'] : List Char) <+: c :: t) := by
          simp only [List.cons_prefix_cons, List.nil_prefix, and_true]
          exact Ne.symm here
        simp only [splitOnce, if_neg later, Option.map_eq_some_iff, Prod.exists, Prod.mk.injEq, ih]
        constructor
        · rintro ⟨h, after, ⟨rfl, outside⟩, rfl, rfl⟩
          exact ⟨rfl, by simp [Ne.symm here, outside]⟩
        · rintro ⟨split, outside⟩
          cases h with
          | nil =>
              simp only [List.nil_append, List.cons.injEq] at split
              exact absurd split.1 here
          | cons d h =>
              simp only [List.cons_append, List.cons.injEq] at split
              obtain ⟨rfl, rfl⟩ := split
              exact ⟨h, after, ⟨rfl, fun mem => outside (List.mem_cons_of_mem _ mem)⟩, rfl, rfl⟩

/-- How a host and a port are cut from what stands before the path. -/
inductive HostCut : List Char → List Char → Option (List Char) → Prop where
  | justPort {p : List Char} (digits : p.all Char.isDigit = true) :
      HostCut p "127.0.0.1".toList (some p)
  | bracketed {h : List Char} (inside : ']' ∉ h) :
      HostCut ('[' :: (h ++ [']'])) ('[' :: (h ++ [']'])) none
  | bracketedPort {h p : List Char} (inside : ']' ∉ h) :
      HostCut ('[' :: (h ++ ']' :: ':' :: p)) ('[' :: (h ++ [']'])) (some p)
  | named {h : List Char} (word : h.all Char.isDigit = false) (first : h.head? ≠ some '[')
      (whole : ':' ∉ h) : HostCut h h none
  | namedPort {h p : List Char} (first : h.head? ≠ some '[') (last : ':' ∉ p) :
      HostCut (h ++ ':' :: p) h (some p)

theorem cutHost_eq_some_iff {hostport host : List Char} {port : Option (List Char)} :
    cutHost hostport = some (host, port) ↔ HostCut hostport host port := by
  have bracket_first : ∀ t : List Char, ('[' :: t).all Char.isDigit = false := by
    intro t
    rfl
  constructor
  · intro cut
    unfold cutHost at cut
    split at cut
    · rename_i digits
      simp only [Option.some.injEq, Prod.mk.injEq] at cut
      obtain ⟨rfl, rfl⟩ := cut
      exact .justPort digits
    rename_i word
    split at cut
    · rename_i inner _
      simp only [Option.bind_eq_some_iff, Prod.exists] at cut
      obtain ⟨h, after, split, cut⟩ := cut
      obtain ⟨rfl, inside⟩ := splitOnce_bracket.mp split
      by_cases none_behind : after = []
      · subst none_behind
        simp only [ne_eq, not_true_eq_false, false_and, if_false, if_true, Option.some.injEq,
          Prod.mk.injEq] at cut
        obtain ⟨rfl, rfl⟩ := cut
        exact .bracketed inside
      · by_cases colon : after.head? = some ':'
        · obtain ⟨p, rfl⟩ := List.head?_eq_some_iff.mp colon
          simp only [List.head?_cons, ne_eq, not_true_eq_false, and_false, if_false, none_behind,
            List.tail_cons, Option.some.injEq, Prod.mk.injEq] at cut
          obtain ⟨rfl, rfl⟩ := cut
          exact .bracketedPort inside
        · simp [none_behind, colon] at cut
    · rename_i other
      have first : hostport.head? ≠ some '[' := by
        intro head
        obtain ⟨t, rfl⟩ := List.head?_eq_some_iff.mp head
        exact other t rfl
      split at cut
      · rename_i h p split
        simp only [Option.some.injEq, Prod.mk.injEq] at cut
        obtain ⟨rfl, rfl⟩ := cut
        obtain ⟨rfl, last⟩ := rsplitOnce_eq_some.mp split
        refine .namedPort ?_ last
        intro head
        obtain ⟨t, rfl⟩ := List.head?_eq_some_iff.mp head
        exact first rfl
      · rename_i none_found
        simp only [Option.some.injEq, Prod.mk.injEq] at cut
        obtain ⟨rfl, rfl⟩ := cut
        exact .named (by simpa using word) first (rsplitOnce_eq_none.mp none_found)
  · intro cut
    cases cut with
    | justPort digits =>
        unfold cutHost
        rw [if_pos digits]
    | bracketed inside =>
        rename_i h
        have split : splitOnce [']'] (h ++ [']']) = some (h, []) :=
          splitOnce_bracket.mpr ⟨rfl, inside⟩
        simp [cutHost, bracket_first, split]
    | bracketedPort inside =>
        rename_i h p
        have split : splitOnce [']'] (h ++ ']' :: ':' :: p) = some (h, ':' :: p) :=
          splitOnce_bracket.mpr ⟨rfl, inside⟩
        simp [cutHost, bracket_first, split]
    | named word first whole =>
        have none_found := rsplitOnce_eq_none.mpr whole
        unfold cutHost
        rw [word]
        simp only [Bool.false_eq_true, if_false]
        split
        · exact absurd rfl first
        · rw [none_found]
    | namedPort first last =>
        rename_i p
        have split : rsplitOnce ':' (host ++ ':' :: p) = some (host, p) :=
          rsplitOnce_eq_some.mpr ⟨rfl, last⟩
        have word : (host ++ ':' :: p).all Char.isDigit = false := by
          simp [List.all_append]
        unfold cutHost
        rw [word]
        simp only [Bool.false_eq_true, if_false]
        split
        · rename_i bracket
          cases host with
          | nil => simp at bracket
          | cons c h =>
              simp only [List.cons_append, List.cons.injEq] at bracket
              exact absurd (by simp [bracket.1]) first
        · rw [split]

/-! ## Ports -/

theorem portText_digits {n : Option ℕ} : ∀ c ∈ portText n, c = ':' ∨ c.isDigit = true := by
  intro c hc
  cases n with
  | none => cases hc
  | some n =>
      rcases List.mem_cons.mp hc with rfl | hc
      · exact Or.inl rfl
      · exact Or.inr (Nat.isDigit_of_mem_toDigits (by omega) (by omega) hc)

theorem count_portText (n : Option ℕ) :
    (portText n).count ':' = if n.isSome then 1 else 0 := by
  cases n with
  | none => rfl
  | some n =>
      have outside : ':' ∉ Nat.toDigits 10 n := by
        intro mem
        have digit := Nat.isDigit_of_mem_toDigits (by omega) (by omega) mem
        cases digit
      simp [portText, List.count_eq_zero.mpr outside]

/-- A port that is read is a number that fits, written with digits and maybe a plus. -/
theorem of_readPort {p : List Char} {n : Option ℕ} (h : readPort (some p) = some n) :
    (∃ m, n = some m ∧ 1 ≤ m ∧ m ≤ 65535) ∧ ∀ c ∈ p, c = '+' ∨ c.isDigit = true := by
  simp only [readPort, Option.map_eq_some_iff, Option.filter_eq_some_iff, decide_eq_true_eq] at h
  obtain ⟨m, ⟨read, range⟩, rfl⟩ := h
  refine ⟨⟨m, rfl, range⟩, ?_⟩
  unfold parseCount at read
  dsimp only at read
  generalize unsigned : (if p.head? = some '+' then p.tail else p) = number at read
  split at read
  · cases read
  rename_i digits
  simp only [not_or, not_not, List.all_eq_true] at digits
  intro c hc
  split at unsigned
  · rename_i plus
    subst unsigned
    obtain ⟨t, rfl⟩ := List.head?_eq_some_iff.mp plus
    rcases List.mem_cons.mp hc with rfl | hc
    · exact Or.inl rfl
    · exact Or.inr (digits.2 c hc)
  · subst unsigned
    exact Or.inr (digits.2 c hc)

/-- The port that is written is read again. -/
theorem readPort_toDigits {n : ℕ} (range : 1 ≤ n ∧ n ≤ 65535) :
    readPort (some (Nat.toDigits 10 n)) = some (some n) := by
  have read : parseCount (2 ^ 32) (Nat.toDigits 10 n) = some n := parseCount_toDigits (by omega)
  simp only [readPort, read, Option.filter_some, range, and_self, decide_true, if_true,
    Option.map_some]

/-! ## Base addresses -/

/-- A host: a name, or an address of the newer kind in brackets. -/
def IsHost (host : List Char) : Prop :=
  (host ≠ [] ∧ host.all hostChar = true) ∧
    ((∀ c ∈ host, c ≠ '[' ∧ c ≠ ']' ∧ c ≠ ':') ∨
      ∃ a, host = '[' :: (a ++ [']']) ∧ ']' ∉ a ∧ (parseIpv6 a).isSome = true)

/-- A path that is empty, or begins with a slash and ends neither in one nor in `/v1`. -/
def IsPath (path : List Char) : Prop :=
  path = [] ∨ (path.head? = some '/' ∧ ¬['/'] <:+ path ∧ ¬"/v1".toList <:+ path)

/-- A base address: scheme, host, maybe a port, and a path. -/
def IsBase (r : String) : Prop :=
  ∃ scheme host port path, r = address scheme host port path ∧
    (scheme = "http" ∨ scheme = "https") ∧ IsHost host ∧
      (∀ n ∈ port, 1 ≤ n ∧ n ≤ 65535) ∧ IsPath path

/-- What stands before the path gives a host: only a port, an address in brackets, or a name with
no colon but the one before the port. -/
def HostSettles (hostport : List Char) : Prop :=
  hostport.all Char.isDigit = true ∨
    (hostport.head? = some '[' ∧
      (parseIpv6 (hostport.tail.takeWhile (· ≠ ']'))).isSome = true) ∨
    (hostport.count ':' ≤ 1 ∧ '[' ∉ hostport ∧ ']' ∉ hostport)

instance (hostport : List Char) : Decidable (HostSettles hostport) :=
  inferInstanceAs (Decidable (_ ∨ _ ∨ _))

/-- What is left of a path once a `/v1` is cut off at its end needs no second cut. -/
def PathSettles (path : List Char) : Prop :=
  ¬"//v1".toList <:+ path ∧ ("/v1/v1".toList <:+ path → path = "/v1/v1".toList)

instance (path : List Char) : Decidable (PathSettles path) :=
  inferInstanceAs (Decidable (_ ∧ _))

/-- What is typed needs no second cut. -/
def Settles (input : String) : Prop :=
  ∀ scheme rest, splitScheme (trim input).toList = .ok (scheme, rest) →
    HostSettles ((rest.takeWhile (· ≠ '/')).dropWhile (· = ':')) ∧
      PathSettles ((rest.dropWhile (· ≠ '/')).rdropWhile (· = '/'))

theorem mem_localhost : ∀ c ∈ "localhost".toList, c ≠ '[' ∧ c ≠ ']' ∧ c ≠ ':' ∧ c ≠ '/' := by
  decide

/-- This machine by its name has none of the characters that are cut at. -/
theorem of_localhost {host : List Char} (name : lower host = "localhost".toList) :
    ∀ c ∈ host, c ≠ '[' ∧ c ≠ ']' ∧ c ≠ ':' := by
  intro c hc
  have small : c.toLower ∈ "localhost".toList := name ▸ List.mem_map_of_mem hc
  have letters := mem_localhost _ small
  refine ⟨?_, ?_, ?_⟩
  · rintro rfl
    exact letters.1 rfl
  · rintro rfl
    exact letters.2.1 rfl
  · rintro rfl
    exact letters.2.2.1 rfl

theorem isHost_of_plain {host : List Char} (chars : host ≠ [] ∧ host.all hostChar = true)
    (plain : ∀ c ∈ host, c ≠ '[' ∧ c ≠ ']' ∧ c ≠ ':') : IsHost (writtenHost host) := by
  unfold writtenHost
  split
  · exact ⟨by decide, Or.inl (by decide)⟩
  · exact ⟨chars, Or.inl plain⟩

theorem writtenHost_bracket (h : List Char) : writtenHost ('[' :: h) = '[' :: h := by
  unfold writtenHost
  rw [if_neg]
  intro name
  have plain := of_localhost name '[' (by simp)
  exact plain.1 rfl

/-- A host that does not begin with a bracket is written as one exactly when it is a name. -/
theorem isHost_named_iff {host : List Char} (chars : host ≠ [] ∧ host.all hostChar = true)
    (first : host.head? ≠ some '[') :
    IsHost (writtenHost host) ↔ ∀ c ∈ host, c ≠ '[' ∧ c ≠ ']' ∧ c ≠ ':' := by
  refine ⟨?_, isHost_of_plain chars⟩
  intro is_host
  by_cases name : lower host = "localhost".toList
  · exact of_localhost name
  · unfold writtenHost at is_host
    rw [if_neg name] at is_host
    rcases is_host.2 with plain | ⟨a, rfl, -⟩
    · exact plain
    · exact absurd rfl first

/-- A host in brackets is written as one exactly when an address stands between them. -/
theorem isHost_bracketed_iff {h after : List Char} (inside : ']' ∉ h)
    (chars : ('[' :: (h ++ [']'])).all hostChar = true) :
    IsHost (writtenHost ('[' :: (h ++ [']']))) ↔ HostSettles ('[' :: (h ++ ']' :: after)) := by
  have between : (h ++ ']' :: after).takeWhile (· ≠ ']') = h := by
    rw [List.takeWhile_append_of_pos, List.takeWhile_cons_of_neg (by simp), List.append_nil]
    intro c hc
    rw [decide_eq_true_eq]
    rintro rfl
    exact inside hc
  rw [writtenHost_bracket]
  unfold HostSettles
  rw [List.tail_cons, between]
  constructor
  · rintro ⟨-, plain | ⟨a, same, -, reads⟩⟩
    · exact absurd rfl (plain '[' (by simp)).1
    · simp only [List.cons.injEq, true_and, List.append_cancel_right_eq] at same
      exact Or.inr (Or.inl ⟨rfl, same ▸ reads⟩)
  · rintro (digits | ⟨-, reads⟩ | ⟨-, none_open, -⟩)
    · cases digits
    · exact ⟨⟨by simp, chars⟩, Or.inr ⟨h, rfl, inside, reads⟩⟩
    · exact absurd List.mem_cons_self none_open

/-- The host that is written is one exactly when what stands before the path gives one. -/
theorem isHost_iff {hostport host : List Char} {port : Option (List Char)} {n : Option ℕ}
    (cut : HostCut hostport host port) (chars : host ≠ [] ∧ host.all hostChar = true)
    (read : readPort port = some n) : IsHost (writtenHost host) ↔ HostSettles hostport := by
  cases cut with
  | justPort digits =>
      have plain : IsHost (writtenHost "127.0.0.1".toList) :=
        isHost_of_plain (by decide) (by decide)
      exact iff_of_true plain (Or.inl digits)
  | bracketed inside => exact isHost_bracketed_iff inside chars.2
  | bracketedPort inside => exact isHost_bracketed_iff inside chars.2
  | named word first whole =>
      rw [isHost_named_iff chars first]
      unfold HostSettles
      constructor
      · intro plain
        refine Or.inr (Or.inr ⟨?_, fun mem => (plain _ mem).1 rfl, fun mem => (plain _ mem).2.1 rfl⟩)
        rw [List.count_eq_zero.mpr whole]
        exact Nat.zero_le 1
      · rintro (digits | ⟨head, -⟩ | ⟨-, opens, closes⟩)
        · rw [word] at digits
          cases digits
        · exact absurd head first
        · intro c hc
          exact ⟨fun e => opens (e ▸ hc), fun e => closes (e ▸ hc), fun e => whole (e ▸ hc)⟩
  | namedPort first last =>
      rename_i p
      rw [isHost_named_iff chars first]
      have digits := (of_readPort read).2
      have count : (host ++ ':' :: p).count ':' = host.count ':' + 1 := by
        rw [List.count_append, List.count_cons_self, List.count_eq_zero.mpr last]
      have outside : ∀ c, c ≠ ':' → c ≠ '+' → c.isDigit = false →
          (c ∈ host ++ ':' :: p ↔ c ∈ host) := by
        intro c no_colon no_plus no_digit
        simp only [List.mem_append, List.mem_cons, no_colon, false_or, or_iff_left_iff_imp]
        intro hc
        rcases digits c hc with plus | digit
        · exact absurd plus no_plus
        · rw [no_digit] at digit
          cases digit
      unfold HostSettles
      rw [count, outside '[' (by decide) (by decide) rfl, outside ']' (by decide) (by decide) rfl]
      constructor
      · intro plain
        refine Or.inr (Or.inr ⟨?_, fun mem => (plain _ mem).1 rfl, fun mem => (plain _ mem).2.1 rfl⟩)
        rw [List.count_eq_zero.mpr fun mem => (plain _ mem).2.2 rfl]
      · rintro (all_digits | ⟨head, -⟩ | ⟨few, opens, closes⟩)
        · have colon := List.all_eq_true.mp all_digits ':' (by simp)
          cases colon
        · cases host with
          | nil => simp at head
          | cons c h => exact absurd head first
        · have whole : ':' ∉ host := List.count_eq_zero.mp (by omega)
          intro c hc
          exact ⟨fun e => opens (e ▸ hc), fun e => closes (e ▸ hc), fun e => whole (e ▸ hc)⟩

/-- A path is empty or begins with a slash. -/
theorem begins_with_slash (rest : List Char) :
    (rest.dropWhile (· ≠ '/')).rdropWhile (· = '/') = [] ∨
      ((rest.dropWhile (· ≠ '/')).rdropWhile (· = '/')).head? = some '/' := by
  cases whole : rest.dropWhile (· ≠ '/') with
  | nil => exact Or.inl rfl
  | cons c behind =>
      have slash : c = '/' := by
        have stops := List.head_dropWhile_not (fun c => decide (c ≠ '/')) (l := rest)
          (by rw [whole]; exact List.cons_ne_nil _ _)
        simp only [whole, List.head_cons] at stops
        simpa using stops
      have shorter := List.rdropWhile_prefix (· = '/') (c :: behind)
      cases cut : (c :: behind).rdropWhile (· = '/') with
      | nil => exact Or.inl rfl
      | cons d path =>
          rw [cut, List.cons_prefix_cons] at shorter
          rw [shorter.1, slash]
          exact Or.inr rfl

theorem append_suffix_append {s t l : List Char} : s ++ t <:+ l ++ t ↔ s <:+ l := by
  constructor
  · rintro ⟨front, joined⟩
    rw [← List.append_assoc, List.append_left_inj] at joined
    exact ⟨front, joined⟩
  · rintro ⟨front, rfl⟩
    exact ⟨front, by simp⟩

theorem cutPath_begins (rest : List Char) :
    (cutPath rest).2 <+: (rest.dropWhile (· ≠ '/')).rdropWhile (· = '/') := by
  unfold cutPath
  dsimp only
  split <;> split
  · exact List.nil_prefix
  · exact List.take_prefix _ _
  · exact List.nil_prefix
  · exact List.prefix_rfl

/-- What is left of a path is empty or begins with a slash. -/
theorem begins_cutPath (rest : List Char) :
    (cutPath rest).2 = [] ∨ (cutPath rest).2.head? = some '/' := by
  have shorter := cutPath_begins rest
  cases cut : (cutPath rest).2 with
  | nil => exact Or.inl rfl
  | cons c path =>
      rw [cut] at shorter
      rcases begins_with_slash rest with empty | begins
      · rw [empty] at shorter
        simp at shorter
      · obtain ⟨t, whole⟩ := List.head?_eq_some_iff.mp begins
        rw [whole, List.cons_prefix_cons] at shorter
        rw [shorter.1]
        exact Or.inr rfl

/-- The path that is written is one exactly when no second cut finds anything. -/
theorem isPath_iff (rest : List Char) :
    IsPath (cutPath rest).2 ↔
      PathSettles ((rest.dropWhile (· ≠ '/')).rdropWhile (· = '/')) := by
  set path := (rest.dropWhile (· ≠ '/')).rdropWhile (· = '/') with hpath
  have begins : path = [] ∨ path.head? = some '/' := begins_with_slash rest
  have ends : ¬['/'] <:+ path := by
    rintro ⟨front, joined⟩
    have some_path : path ≠ [] := by
      rw [← joined]
      simp
    have last := List.rdropWhile_last_not (· = '/') (rest.dropWhile (· ≠ '/')) some_path
    apply last
    rw [decide_eq_true_eq]
    simp only [← hpath, ← joined, List.getLast_append_singleton]
  have cut : (cutPath rest).2 =
      let path := if "/v1".toList <:+ path then path.take (path.length - 3) else path
      if path = "/v1".toList then [] else path := rfl
  rw [cut]
  dsimp only
  by_cases pasted : "/v1".toList <:+ path
  · obtain ⟨front, joined⟩ := pasted
    have taken : path.take (path.length - 3) = front := by
      rw [← joined, List.length_append]
      exact List.take_left
    have stripped : (if "/v1".toList <:+ path then path.take (path.length - 3) else path) =
        front := by rw [if_pos ⟨front, joined⟩, taken]
    rw [stripped]
    by_cases again : front = "/v1".toList
    · rw [if_pos again, ← joined, again]
      exact iff_of_true (Or.inl rfl) ⟨by decide, fun _ => rfl⟩
    rw [if_neg again, ← joined]
    have slashes : ("//v1".toList <:+ front ++ "/v1".toList) ↔ ['/'] <:+ front :=
      append_suffix_append (s := ['/'])
    have twice : ("/v1/v1".toList <:+ front ++ "/v1".toList) ↔ "/v1".toList <:+ front :=
      append_suffix_append (s := "/v1".toList)
    have not_twice : front ++ "/v1".toList ≠ "/v1/v1".toList := by
      intro same
      have same : front ++ "/v1".toList = "/v1".toList ++ "/v1".toList := same
      exact again (List.append_cancel_right same)
    unfold PathSettles IsPath
    rw [slashes, twice]
    constructor
    · rintro (rfl | ⟨-, no_slash, no_second⟩)
      · exact ⟨by simp, by simp⟩
      · exact ⟨no_slash, fun second => absurd second no_second⟩
    · rintro ⟨no_slash, no_second⟩
      rcases eq_or_ne front [] with empty | some_front
      · exact Or.inl empty
      · refine Or.inr ⟨?_, no_slash, fun second => not_twice (no_second second)⟩
        rcases begins with empty | begins
        · rw [← joined] at empty
          simp at empty
        · rw [← joined, List.head?_append_of_ne_nil _ some_front] at begins
          exact begins
  · have other : path ≠ "/v1".toList := by
      intro same
      exact pasted (same ▸ List.suffix_rfl)
    rw [if_neg pasted, if_neg other]
    have settles : PathSettles path := by
      constructor
      · intro slashes
        exact pasted (List.IsSuffix.trans ⟨['/'], rfl⟩ slashes)
      · intro twice
        exact absurd (List.IsSuffix.trans ⟨"/v1".toList, rfl⟩ twice) pasted
    refine iff_of_true ?_ settles
    rcases begins with empty | begins
    · exact Or.inl empty
    · exact Or.inr ⟨begins, ends, pasted⟩

/-! ## An address has one reading -/

theorem slash_not_mem {host : List Char} (chars : host.all hostChar = true) : '/' ∉ host := by
  intro mem
  have slash := List.all_eq_true.mp chars '/' mem
  revert slash
  decide

/-- What stands before the path and the path are told apart by the first slash. -/
theorem cut_behindScheme (port : Option ℕ) {host path : List Char}
    (chars : host.all hostChar = true) (begins : path = [] ∨ path.head? = some '/') :
    (behindScheme host port path).takeWhile (· ≠ '/') = host ++ portText port ∧
      (behindScheme host port path).dropWhile (· ≠ '/') = path := by
  have before : ∀ c ∈ host ++ portText port, decide (c ≠ '/') = true := by
    intro c hc
    rw [decide_eq_true_eq]
    rintro rfl
    rcases List.mem_append.mp hc with hc | hc
    · exact slash_not_mem chars hc
    · rcases portText_digits _ hc with colon | digit
      · cases colon
      · cases digit
  unfold behindScheme
  rw [List.takeWhile_append_of_pos before, List.dropWhile_append_of_pos before]
  rcases begins with rfl | begins
  · simp
  · obtain ⟨t, rfl⟩ := List.head?_eq_some_iff.mp begins
    simp

theorem address_inj {scheme scheme' : String} {host host' path path' : List Char}
    {n n' : Option ℕ} (known : scheme = "http" ∨ scheme = "https")
    (known' : scheme' = "http" ∨ scheme' = "https") (chars : host.all hostChar = true)
    (chars' : host'.all hostChar = true) (begins : path = [] ∨ path.head? = some '/')
    (begins' : path' = [] ∨ path'.head? = some '/')
    (same : address scheme host n path = address scheme' host' n' path') :
    host ++ portText n = host' ++ portText n' ∧ path = path' := by
  have behind : behindScheme host n path = behindScheme host' n' path' := by
    have texts := String.ofList_injective same
    rcases known with rfl | rfl <;> rcases known' with rfl | rfl <;>
      simp only [List.append_assoc, List.append_cancel_left_eq] at texts
    · exact texts
    · cases texts
    · cases texts
    · exact texts
  obtain ⟨before, after⟩ := cut_behindScheme n chars begins
  obtain ⟨before', after'⟩ := cut_behindScheme n' chars' begins'
  exact ⟨before.symm.trans (behind ▸ before'), after.symm.trans (behind ▸ after')⟩

theorem chars_writtenHost {host : List Char} (chars : host ≠ [] ∧ host.all hostChar = true) :
    writtenHost host ≠ [] ∧ (writtenHost host).all hostChar = true := by
  unfold writtenHost
  split
  · exact ⟨by decide, by decide⟩
  · exact chars

theorem head?_writtenHost {host : List Char} (first : host.head? ≠ some '[') :
    (writtenHost host).head? ≠ some '[' := by
  unfold writtenHost
  split
  · decide
  · exact first

/-- Whatever else it is read as, a host that is written is one when the address is a base. -/
theorem isHost_of_same {hostport host host' : List Char} {port : Option (List Char)}
    {n n' : Option ℕ} (cut : HostCut hostport host port)
    (chars : host ≠ [] ∧ host.all hostChar = true) (read : readPort port = some n)
    (is_host : IsHost host') (same : writtenHost host ++ portText n = host' ++ portText n') :
    IsHost (writtenHost host) := by
  have written := chars_writtenHost chars
  rcases is_host.2 with plain | ⟨a, rfl, inside', reads⟩
  · refine ⟨written, Or.inl ?_⟩
    have here : ∀ c ∈ writtenHost host, c ∈ host' ++ portText n' :=
      fun c hc => same ▸ List.mem_append_left _ hc
    have no_bracket : ∀ c ∈ writtenHost host, c ≠ '[' ∧ c ≠ ']' := by
      intro c hc
      rcases List.mem_append.mp (here c hc) with hc | hc
      · exact ⟨(plain c hc).1, (plain c hc).2.1⟩
      · rcases portText_digits c hc with rfl | digit
        · decide
        · refine ⟨?_, ?_⟩ <;> rintro rfl <;> cases digit
    have few : (writtenHost host).count ':' + (portText n).count ':' ≤ 1 := by
      rw [← List.count_append, same, List.count_append,
        List.count_eq_zero.mpr fun mem => (plain _ mem).2.2 rfl, count_portText]
      split <;> omega
    have no_colon : ':' ∉ writtenHost host := by
      cases cut with
      | justPort digits => decide
      | bracketed inside =>
          rw [writtenHost_bracket] at no_bracket
          exact absurd rfl (no_bracket '[' List.mem_cons_self).1
      | named word first whole =>
          unfold writtenHost
          split
          · decide
          · exact whole
      | bracketedPort inside | namedPort first last =>
          obtain ⟨⟨m, rfl, -⟩, -⟩ := of_readPort read
          rw [count_portText] at few
          simp only [Option.isSome_some, if_true] at few
          exact List.count_eq_zero.mp (by omega)
    intro c hc
    exact ⟨(no_bracket c hc).1, (no_bracket c hc).2, fun e => no_colon (e ▸ hc)⟩
  · have opens : (writtenHost host).head? = some '[' := by
      rw [← List.head?_append_of_ne_nil _ written.1, same]
      rfl
    have between : ∀ h : List Char, ']' ∉ h →
        '[' :: (h ++ [']']) ++ portText n = '[' :: (a ++ [']']) ++ portText n' → h = a := by
      intro h inside joined
      simp only [List.cons_append, List.append_assoc, List.nil_append, List.cons.injEq,
        true_and] at joined
      -- the first bracket that closes is the only place to cut
      have here : splitOnce [']'] (h ++ ']' :: portText n) = some (h, portText n) :=
        splitOnce_bracket.mpr ⟨rfl, inside⟩
      rw [splitOnce_bracket.mpr ⟨joined, inside'⟩, Option.some.injEq, Prod.mk.injEq] at here
      exact here.1.symm
    cases cut with
    | justPort digits => exact absurd opens (by decide)
    | bracketed inside | bracketedPort inside =>
        rw [writtenHost_bracket] at same ⊢
        obtain rfl := between _ inside same
        exact is_host
    | named word first whole => exact absurd opens (head?_writtenHost first)
    | namedPort first last => exact absurd opens (head?_writtenHost first)

/-! ## The second cut -/

theorem writtenHost_again (host : List Char) :
    writtenHost (writtenHost host) = writtenHost host := by
  by_cases name : lower host = "localhost".toList
  · have local_host : writtenHost host = "127.0.0.1".toList := if_pos name
    rw [local_host]
    decide
  · have other : writtenHost host = host := if_neg name
    rw [other, other]

theorem colon_not_mem_toDigits (m : ℕ) : ':' ∉ Nat.toDigits 10 m := by
  intro mem
  have digit := Nat.isDigit_of_mem_toDigits (by omega) (by omega) mem
  cases digit

/-- What is written is cut where it was put together. -/
theorem hostCut_again {hostport host : List Char} {port : Option (List Char)} {n : Option ℕ}
    (cut : HostCut hostport host port) (read : readPort port = some n) :
    HostCut (writtenHost host ++ portText n) (writtenHost host) (n.map (Nat.toDigits 10)) ∧
      readPort (n.map (Nat.toDigits 10)) = some n ∧ ∀ m ∈ n, 1 ≤ m ∧ m ≤ 65535 := by
  have with_port : ∀ {p : List Char}, port = some p → ∃ m, n = some m ∧ 1 ≤ m ∧ m ≤ 65535 := by
    rintro p rfl
    exact (of_readPort read).1
  have number : ∀ m, 1 ≤ m ∧ m ≤ 65535 → readPort (some (Nat.toDigits 10 m)) = some (some m) ∧
      ∀ k ∈ some m, 1 ≤ k ∧ k ≤ 65535 := by
    intro m range
    refine ⟨readPort_toDigits range, ?_⟩
    intro k hk
    cases hk
    exact range
  cases cut with
  | justPort digits =>
      obtain ⟨m, rfl, range⟩ := with_port rfl
      exact ⟨.namedPort (by decide) (colon_not_mem_toDigits m), number m range⟩
  | bracketed inside =>
      cases read
      rw [writtenHost_bracket]
      refine ⟨?_, rfl, by simp⟩
      simpa [portText] using HostCut.bracketed inside
  | bracketedPort inside =>
      obtain ⟨m, rfl, range⟩ := with_port rfl
      rw [writtenHost_bracket]
      refine ⟨?_, number m range⟩
      simpa [portText] using HostCut.bracketedPort (p := Nat.toDigits 10 m) inside
  | named word first whole =>
      cases read
      refine ⟨?_, rfl, by simp⟩
      simp only [portText, List.append_nil, Option.map_none]
      unfold writtenHost
      split
      · exact .named (by decide) (by decide) (by decide)
      · exact .named word first whole
  | namedPort first last =>
      obtain ⟨m, rfl, range⟩ := with_port rfl
      exact ⟨.namedPort (head?_writtenHost first) (colon_not_mem_toDigits m), number m range⟩

/-- The scheme that is read is one of two, and what stands behind it was typed. -/
theorem splitScheme_eq_ok {t rest : List Char} {scheme : String}
    (split : splitScheme t = .ok (scheme, rest)) :
    (scheme = "http" ∨ scheme = "https") ∧ ∀ c ∈ rest, c ∈ t := by
  unfold splitScheme at split
  split at split
  · cases split
    exact ⟨Or.inr rfl, fun c hc => List.mem_of_mem_drop hc⟩
  split at split
  · cases split
    exact ⟨Or.inl rfl, fun c hc => List.mem_of_mem_drop hc⟩
  split at split
  · cases split
  · cases split
    exact ⟨Or.inl rfl, fun c hc => hc⟩

/-- The scheme that is written is read again. -/
theorem splitScheme_again {scheme : String} (known : scheme = "http" ∨ scheme = "https")
    (behind : List Char) :
    splitScheme (scheme.toList ++ "://".toList ++ behind) = .ok (scheme, behind) := by
  have lowered : ∀ t : List Char, lower (t ++ behind) = lower t ++ lower behind :=
    fun t => List.map_append
  have http : lower ("http".toList ++ "://".toList) = "http://".toList := by decide
  have https : lower ("https".toList ++ "://".toList) = "https://".toList := by decide
  unfold splitScheme
  rw [lowered]
  rcases known with rfl | rfl
  · have plain : ¬"https://".toList <+: lower ("http".toList ++ "://".toList) ++ lower behind := by
      intro secure
      simp [lower] at secure
    rw [if_neg plain, http, if_pos (List.prefix_append _ _)]
    rfl
  · rw [https, if_pos (List.prefix_append _ _)]
    rfl

theorem trim_of_no_blank {r : String} (h : r.toList.any isBlank = false) :
    (trim r).toList = r.toList := by
  have inside : ∀ c ∈ r.toList, isBlank c = false := by simpa using h
  unfold trim
  rw [String.toList_ofList]
  exact trimmed_of_ends (fun c hc => inside c (List.mem_of_head? hc))
    fun c hc => inside c (List.mem_of_getLast? hc)

theorem hostChar_not_blank {c : Char} (h : hostChar c = true) : isBlank c = false := by
  rcases Bool.or_eq_true_iff.mp h with h | h
  · exact isBlank_alphanum h
  · simp only [List.contains_iff_mem, List.mem_cons, List.not_mem_nil, or_false] at h
    rcases h with rfl | rfl | rfl | rfl | rfl | rfl
    all_goals decide

/-- What is left of the path was typed. -/
theorem mem_of_mem_cutPath {rest : List Char} {c : Char} (hc : c ∈ (cutPath rest).2) :
    c ∈ rest := by
  have path := (List.rdropWhile_prefix _ _).subset ((cutPath_begins rest).subset hc)
  exact (List.dropWhile_suffix _).subset path

/-- A base address that was cut once comes out of the second cut as it is. -/
theorem normalizeUrl_address {scheme : String} {hostport host path : List Char}
    {port : Option (List Char)} {n : Option ℕ} (known : scheme = "http" ∨ scheme = "https")
    (cut : HostCut hostport host port) (chars : host ≠ [] ∧ host.all hostChar = true)
    (read : readPort port = some n) (is_host : IsHost (writtenHost host)) (is_path : IsPath path)
    (no_blank : ∀ c ∈ path, isBlank c = false) :
    normalizeUrl (address scheme (writtenHost host) n path) =
      .ok (address scheme (writtenHost host) n path) := by
  have written := chars_writtenHost chars
  obtain ⟨again, read_again, -⟩ := hostCut_again cut read
  have begins : path = [] ∨ path.head? = some '/' := is_path.imp_right And.left
  obtain ⟨before, after⟩ := cut_behindScheme n written.2 begins
  have text : (address scheme (writtenHost host) n path).toList =
      scheme.toList ++ "://".toList ++ behindScheme (writtenHost host) n path :=
    String.toList_ofList
  have blanks : (address scheme (writtenHost host) n path).toList.any isBlank = false := by
    rw [text, List.any_eq_false]
    intro c hc
    unfold behindScheme at hc
    simp only [List.mem_append] at hc
    rw [Bool.not_eq_true]
    rcases hc with (hc | hc) | (hc | hc) | hc
    · rcases known with rfl | rfl <;> revert c <;> decide
    · revert c
      decide
    · exact hostChar_not_blank (List.all_eq_true.mp written.2 c hc)
    · rcases portText_digits c hc with rfl | digit
      · decide
      · exact isBlank_digit digit
    · exact no_blank c hc
  have path_again : cutPath (behindScheme (writtenHost host) n path) =
      (writtenHost host ++ portText n, path) := by
    unfold cutPath
    rw [before, after]
    rcases is_path with rfl | ⟨-, no_slash, no_version⟩
    · rfl
    · have whole : path.rdropWhile (· = '/') = path := by
        rw [List.rdropWhile_eq_self_iff]
        intro some_path last
        apply no_slash
        rw [decide_eq_true_eq] at last
        exact ⟨path.dropLast, by rw [← last, List.dropLast_append_getLast]⟩
      have other : path ≠ "/v1".toList := by
        rintro rfl
        exact no_version List.suffix_rfl
      dsimp only
      rw [whole, if_neg no_version, if_neg other]
  have colon_first : (writtenHost host ++ portText n).dropWhile (· = ':') =
      writtenHost host ++ portText n := by
    apply dropWhile_of_head
    intro c hc
    rw [List.head?_append_of_ne_nil _ written.1] at hc
    rw [decide_eq_false_iff_not]
    rintro rfl
    rcases is_host.2 with plain | ⟨a, bracketed, -⟩
    · exact (plain ':' (List.mem_of_head? hc)).2.2 rfl
    · rw [bracketed] at hc
      cases hc
  rw [normalizeUrl_eq_ok, trim_of_no_blank blanks, text]
  refine ⟨⟨?_, text ▸ blanks⟩, scheme, _, splitScheme_again known _, writtenHost host,
    n.map (Nat.toDigits 10), ?_, ?_⟩
  · rcases known with rfl | rfl <;> simp
  · rw [path_again, colon_first]
    exact cutHost_eq_some_iff.mpr again
  · rw [path_again, finish_eq_ok]
    refine ⟨written, n, read_again, ?_⟩
    rw [writtenHost_again]

/-- What is typed gives a base address that stays as it is exactly when it needs no second
cut. -/
theorem settles_iff {input r : String} (accepted : normalizeUrl input = .ok r) :
    (IsBase r ∧ normalizeUrl r = .ok r) ↔ Settles input := by
  obtain ⟨⟨-, blanks⟩, scheme, rest, split, host, port, cut, finished⟩ :=
    normalizeUrl_eq_ok.mp accepted
  obtain ⟨chars, n, read, rfl⟩ := finish_eq_ok.mp finished
  obtain ⟨known, typed⟩ := splitScheme_eq_ok split
  have cut := cutHost_eq_some_iff.mp cut
  have settles : Settles input ↔ IsHost (writtenHost host) ∧ IsPath (cutPath rest).2 := by
    rw [isHost_iff cut chars read, isPath_iff]
    unfold Settles
    rw [split]
    constructor
    · intro h
      exact h scheme rest rfl
    · rintro h _ _ same
      cases same
      exact h
  rw [settles]
  constructor
  · rintro ⟨⟨scheme', host', n', path', same, known', is_host, -, is_path⟩, -⟩
    obtain ⟨before, after⟩ := address_inj known known' (chars_writtenHost chars).2 is_host.1.2
      (begins_cutPath rest) (is_path.imp_right And.left) same
    exact ⟨isHost_of_same cut chars read is_host before, after ▸ is_path⟩
  · rintro ⟨is_host, is_path⟩
    refine ⟨⟨scheme, _, n, _, rfl, known, is_host, (hostCut_again cut read).2.2, is_path⟩, ?_⟩
    apply normalizeUrl_address known cut chars read is_host is_path
    intro c hc
    have inside := typed c (mem_of_mem_cutPath hc)
    simp only [List.any_eq_false, Bool.not_eq_true] at blanks
    exact blanks c inside

theorem normalizeUrl_pasted :
    normalizeUrl "http://localhost:8000/v1/" = .ok "http://127.0.0.1:8000" := by
  rfl

/-- What is pasted with the version behind it gives a base address. -/
theorem pasted_settles : IsBase "http://127.0.0.1:8000" ∧
    normalizeUrl "http://127.0.0.1:8000" = .ok "http://127.0.0.1:8000" := by
  apply (settles_iff normalizeUrl_pasted).mpr
  intro scheme rest split
  have cut : splitScheme (trim "http://localhost:8000/v1/").toList =
      .ok ("http", "localhost:8000/v1/".toList) := rfl
  rw [cut] at split
  cases split
  exact ⟨by decide, by decide⟩

/-- The version is cut off behind a slash too many, and the slash stays: the next time it is cut
off as well. -/
theorem slashes_do_not_settle :
    ¬∀ input r, normalizeUrl input = .ok r → IsBase r ∧ normalizeUrl r = .ok r := by
  intro h
  have first : normalizeUrl "http://box:8000//v1" = .ok "http://box:8000/" := rfl
  have second : normalizeUrl "http://box:8000/" = .ok "http://box:8000" := rfl
  have stays := (h _ _ first).2
  rw [second] at stays
  simp at stays

end Lss.Analysis.BaseAddresses
