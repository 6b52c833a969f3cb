import Lss.Analysis.EngineRewrites
import Lss.Library.Numerals
import Lss.Model.SetupFiles

/-!
# What the files of setup say

The file of a new collector says where it answers and where it stores, and the file of the screen
names the ports it was written with.
-/

set_option autoImplicit false

namespace Lss.Analysis.SetupTexts

open Lss.Library Lss.Library.Lines Lss.Library.Statements Lss.Model Lss.Model.Setup
open Lss.Analysis.EngineBlocks Lss.Analysis.EngineRewrites
open Toml (Header)

/-! ## Addresses -/

/-- The address of a new collector. -/
def localAddress (port : ℕ) : String := "127.0.0.1:" ++ toString port

/-- The same for the screen. -/
def localUrl (port : ℕ) : String := "http://127.0.0.1:" ++ toString port

/-- The number behind the last colon is read back. -/
theorem portOf_colon (front : List Char) {port : ℕ} (fits : port < 2 ^ 16) :
    portOf (String.ofList (front ++ ':' :: (toString port).toList)) = some port := by
  have digits : (toString port).toList = Nat.toDigits 10 port := by
    rw [Nat.toString_eq_repr, Nat.toList_repr]
  have no_colon : ':' ∉ (toString port).toList := fun mem =>
    absurd (Numerals.isDigit_toString ':' mem) (by decide)
  have behind : rsplitOnce ':' (front ++ ':' :: (toString port).toList) =
      some (front, (toString port).toList) := rsplitOnce_eq_some.mpr ⟨rfl, no_colon⟩
  unfold portOf
  rw [String.toList_ofList, behind, digits]
  exact parseCount_toDigits fits

/-- What stands in front of the port, its colon apart. -/
theorem address_eq {front : String} {host : List Char} (colon : front.toList = host ++ [':'])
    (port : ℕ) :
    front ++ toString port = String.ofList (host ++ ':' :: (toString port).toList) := by
  rw [← String.toList_inj, String.toList_append, String.toList_ofList, colon, List.append_assoc,
    List.singleton_append]

theorem portOf_localAddress {port : ℕ} (fits : port < 2 ^ 16) :
    portOf (localAddress port) = some port := by
  have colon : "127.0.0.1:".toList = "127.0.0.1".toList ++ [':'] := by decide
  unfold localAddress
  rw [address_eq colon, portOf_colon _ fits]

theorem portOf_localUrl {port : ℕ} (fits : port < 2 ^ 16) :
    portOf (localUrl port) = some port := by
  have colon : "http://127.0.0.1:".toList = "http://127.0.0.1".toList ++ [':'] := by decide
  unfold localUrl
  rw [address_eq colon, portOf_colon _ fits]

/-- A port that is read fits. -/
theorem portOf_lt {address : String} {port : ℕ} (read : portOf address = some port) :
    port < 2 ^ 16 := by
  unfold portOf at read
  exact parseCount_lt read

/-- A text that is written between quotes as it is. -/
theorem tomlStr_of_plain {s : String} (plain : ∀ c ∈ s.toList, Setup.tomlChar c = [c]) :
    Setup.tomlStr s = '"' :: s.toList ++ ['"'] := by
  unfold Setup.tomlStr
  rw [List.flatMap_congr plain, List.flatMap_singleton']

theorem tomlChar_digit {c : Char} (digit : c.isDigit) : Setup.tomlChar c = [c] := by
  have range : 48 ≤ c.toNat ∧ c.toNat ≤ 57 := by
    simpa [Char.isDigit, UInt32.le_iff_toNat_le] using digit
  have slash : c ≠ '\\' := by
    rintro rfl
    exact absurd digit (by decide)
  have quote : c ≠ '"' := by
    rintro rfl
    exact absurd digit (by decide)
  unfold Setup.tomlChar
  rw [if_neg slash, if_neg quote, if_neg]
  simp
  omega

/-- A port behind a text that is written as it is. -/
theorem tomlStr_address {front : String} (fixed : ∀ c ∈ front.toList, Setup.tomlChar c = [c])
    (port : ℕ) : Setup.tomlStr (front ++ toString port) =
      '"' :: front.toList ++ (toString port).toList ++ ['"'] := by
  rw [tomlStr_of_plain]
  · rw [String.toList_append, List.cons_append, List.cons_append, List.cons_append]
  · intro c hc
    rw [String.toList_append] at hc
    exact (List.mem_append.mp hc).elim (fixed c) fun digit =>
      tomlChar_digit (Numerals.isDigit_toString c digit)

theorem tomlStr_localAddress (port : ℕ) : Setup.tomlStr (localAddress port) =
    "\"127.0.0.1:".toList ++ (toString port).toList ++ ['"'] :=
  tomlStr_address (by decide +kernel) port

theorem tomlStr_localUrl (port : ℕ) : Setup.tomlStr (localUrl port) =
    "\"http://127.0.0.1:".toList ++ (toString port).toList ++ ['"'] :=
  tomlStr_address (by decide +kernel) port

/-- The last character of an address is one of the port. -/
theorem getLast?_localUrl (port : ℕ) : ∀ c ∈ (localUrl port).toList.getLast?, c.isDigit := by
  intro c hc
  have some_digits : (toString port).toList ≠ [] := by
    rw [Nat.toString_eq_repr, Nat.toList_repr]
    exact Nat.toDigits_ne_nil
  unfold localUrl at hc
  rw [String.toList_append, List.getLast?_append_of_ne_nil _ some_digits] at hc
  exact Numerals.isDigit_toString c (List.mem_of_getLast? hc)

/-- An address has no blanks at its ends. -/
theorem trim_localUrl (port : ℕ) : trim (localUrl port) = localUrl port := by
  have same : trimmed isBlank (localUrl port).toList = (localUrl port).toList := by
    refine trimmed_of_ends ?_ fun c hc => ?_
    · unfold localUrl
      rw [String.toList_append]
      intro c hc
      rw [← Option.some.inj hc]
      decide
    · have digit := getLast?_localUrl port c hc
      exact isBlank_visible c (Or.inl (by simp [Toml.bare, Char.isAlphanum, digit]))
  exact (congrArg String.ofList same).trans String.ofList_toList

/-- An address does not end with a slash. -/
theorem bareUrl_localUrl (port : ℕ) : bareUrl (localUrl port) = localUrl port := by
  have ends : (localUrl port).toList.rdropWhile (· = '/') = (localUrl port).toList := by
    rw [List.rdropWhile_eq_self_iff]
    intro some_text slash
    have digit := getLast?_localUrl port _ (List.getLast?_eq_some_getLast some_text)
    rw [of_decide_eq_true slash] at digit
    cases digit
  unfold bareUrl
  rw [ends, String.ofList_toList]

theorem localUrl_ne (port : ℕ) : localUrl port ≠ "" := by
  intro empty
  have letters := congrArg (List.length ∘ String.toList) empty
  unfold localUrl at letters
  simp at letters

/-! ## The file of a new collector -/

section Texts

variable {V : Type} {r : Reader V}

/-- The block of the chosen engine; without one there is a comment. -/
def engineStatements (r : Reader V) : Option EngineChoice → List (Statement V)
  | some c => .header (.element ["engine"]) ::
      (enginePairs r.toParser c).map fun e => .pair [e.1] e.2
  | none => [.nothing]

def newStatements (r : Reader V) (choice : Option EngineChoice) (port index : ℕ)
    (stateDir notifyCmd ratesPath : String) : List (Statement V) :=
  let listen : List (Statement V) := [.nothing, .pair ["listen"] (r.list [localAddress port])]
  let db : List (Statement V) :=
    if index ≠ 1 then [.pair ["db_path"] (r.value (.str (stateDb stateDir index)))] else []
  let alert : List (Statement V) :=
    if notifyCmd ≠ "" then [.pair ["alert_cmd"] (r.value (.str notifyCmd))] else []
  let ca : List (Statement V) := (caFile choice).toList.map fun path =>
    .pair ["tls_ca_file"] (r.value (.str path))
  let rates : List (Statement V) :=
    [.nothing, .header (.table ["rates"]), .pair ["path"] (r.value (.str ratesPath))]
  listen ++ db ++ alert ++ ca ++ [.nothing] ++ engineStatements r choice ++ rates

/-- Keys that are all at the top are found there. -/
theorem rootValue_listen (choice : Option EngineChoice) (port index : ℕ)
    (stateDir notifyCmd ratesPath : String) :
    rootValue (located .root (newStatements r choice port index stateDir notifyCmd ratesPath))
      "listen" = some (r.list [localAddress port]) := by
  simp [newStatements, located, rootValue, Statement.under]

/-- A key that is set nowhere is not found. -/
theorem rootValue_located_of_free {key : String} {ss : List (Statement V)}
    (free : ∀ s ∈ ss, ∀ v, s ≠ .pair [key] v) (h : Header) :
    rootValue (located h ss) key = none := by
  unfold rootValue
  rw [List.findSome?_eq_none_iff]
  induction ss generalizing h with
  | nil => simp [located]
  | cons s ss ih =>
      have rest := ih (fun t ht => free t (List.mem_cons_of_mem _ ht)) (s.under h)
      intro d hd
      rw [located] at hd
      rcases List.mem_cons.mp hd with rfl | hd
      · split
        · rename_i k v same
          have other := free s List.mem_cons_self v
          rw [(Prod.mk.inj same).2] at other
          rw [if_neg fun eq => other (by rw [eq])]
        · rfl
      · exact rest d hd

theorem rootValue_dbPath (choice : Option EngineChoice) (port index : ℕ)
    (stateDir notifyCmd ratesPath : String) :
    rootValue (located .root (newStatements r choice port index stateDir notifyCmd ratesPath))
      "db_path" = if index = 1 then none else some (r.value (.str (stateDb stateDir index))) := by
  split
  · rename_i first
    apply rootValue_located_of_free
    intro s hs v same
    subst same
    cases choice with
    | none => simp [newStatements, engineStatements, first, caFile] at hs
    | some c =>
        have names : ∀ e ∈ enginePairs r.toParser c, e.1 ≠ "db_path" := by
          intro e he
          unfold enginePairs at he
          simp only [List.mem_append, List.mem_cons, List.not_mem_nil, or_false] at he
          obtain ((rfl | rfl) | he) | he := he
          · simp
          · simp
          · split at he
            · cases he
            · rw [List.mem_singleton.mp he]
              simp
          · split at he
            · rw [List.mem_singleton.mp he]
              simp
            · cases he
        simp [newStatements, engineStatements, first] at hs
        exact names _ hs rfl
  · rename_i later
    simp [newStatements, later, located, rootValue, Statement.under]

variable (correct : r.Correct isBlank)
include correct

theorem read_comment {text : List Char} (ends : Toml.Trailing text) :
    r.read [text] = some .nothing :=
  correct.lawful.line (.comment text) ends

/-- A key with a text behind it, and maybe a comment. -/
theorem read_key (head key : String) (shape : key.toList ++ " = ".toList = head.toList)
    (bare : Toml.Bare key.toList) (s : String) {trailing : List Char}
    (ends : Toml.Trailing trailing) :
    r.read [head.toList ++ Setup.tomlStr s ++ trailing] =
      some (.pair [key] (r.value (.str s))) := by
  rw [← shape]
  exact read_quoted correct.lawful key bare s ends

/-- The lines of a new file are read one by one. -/
theorem spoken_new (choice : Option EngineChoice) (port index : ℕ)
    (stateDir notifyCmd ratesPath : String) :
    Spoken r.read (newCollectorLines choice port index stateDir notifyCmd ++ ratesLines ratesPath)
      (newStatements r choice port index stateDir notifyCmd ratesPath) := by
  have none_behind : Toml.Trailing [] := ⟨Or.inl rfl, by simp⟩
  have first : Toml.Trailing <| String.toList
      "# written by lss setup (every key and its default: packaging/collector.toml.example)" :=
    .of_text rfl (by decide) (by decide)
  have looking : Toml.Trailing
      ("# engine_url = \"auto\": the collector finds the LLM server by itself " ++
        "(lss-collector --detect)").toList :=
    .of_texts rfl rfl (by decide) (by decide)
  have certificate : Toml.Trailing
      "   # the https engine's certificate or its CA (lss setup)".toList :=
    .of_text rfl (by decide) (by decide)
  have listen := correct.row "listen".toList ((localAddress port).toList.map fun c =>
    (c, quoteStyle c)) [] ⟨by decide, by decide⟩ (quoted_wellFormed _) none_behind
  have written : (Toml.Value.str ((localAddress port).toList.map fun c =>
      (c, quoteStyle c))).text = "\"127.0.0.1:".toList ++ (toString port).toList ++ ['"'] := by
    rw [← tomlStr_localAddress, tomlStr_quoted]
    rfl
  have db := read_key correct "db_path = " "db_path" (by decide) ⟨by decide, by decide⟩
    (stateDb stateDir index) none_behind
  have called : Toml.Trailing ("   # called as: alert_cmd <severity> <message>; " ++
      "hooks in alert.env next to this file").toList :=
    .of_texts rfl rfl (by decide) (by decide)
  have alert := read_key correct "alert_cmd = " "alert_cmd" (by decide) ⟨by decide, by decide⟩
    notifyCmd called
  have path := read_key correct "path = " "path" (by decide) ⟨by decide, by decide⟩ ratesPath
    none_behind
  have table : r.read ["[rates]".toList] = some (.header (.table ["rates"])) := by
    have bare : Toml.Bare "rates".toList := ⟨by decide, by decide⟩
    exact correct.lawful.line (.table ["rates".toList]) ⟨by simp, by simpa using bare⟩
  have element : r.read ["[[engine]]".toList] = some (.header (.element ["engine"])) := by
    have bare : Toml.Bare "engine".toList := ⟨by decide, by decide⟩
    exact correct.lawful.line (.element ["engine".toList]) ⟨by simp, by simpa using bare⟩
  have blank := read_blank correct.lawful
  unfold newCollectorLines ratesLines newStatements Spoken
  refine List.rel_append (List.rel_append (List.rel_append (List.rel_append (List.rel_append
    (List.rel_append ?_ ?_) ?_) ?_) ?_) ?_) ?_
  · refine .cons (read_comment correct first) (.cons ?_ .nil)
    rw [written] at listen
    simpa [Function.comp_def] using listen
  · split
    · rw [List.append_nil] at db
      exact .cons db .nil
    · exact .nil
  · split
    · exact .cons alert .nil
    · exact .nil
  · unfold caLine
    cases caFile choice with
    | none => exact .nil
    | some file =>
        have ca := read_key correct "tls_ca_file = " "tls_ca_file" (by decide)
          ⟨by decide, by decide⟩ file certificate
        exact .cons ca .nil
  · exact .cons blank .nil
  · cases choice with
    | none => exact .cons (read_comment correct looking) .nil
    | some c =>
        refine .cons element ?_
        exact List.forall₂_map_right_iff.mpr (enginePairs_read correct.lawful c)
  · rw [List.append_nil] at path
    exact .cons blank (.cons table (.cons path .nil))

omit correct

/-- A new file that is read says the port and the database of its number. -/
theorem parseConfig_new {l : Loader V} (right : l.Correct isBlank) {choice : Option EngineChoice}
    {port index : ℕ} {stateDir notifyCmd ratesPath : String} {c : CollectorConfig}
    (read : parseConfig l (newCollectorToml choice port index stateDir notifyCmd ++
      joined (ratesLines ratesPath)) = some c) :
    c = ⟨[localAddress port], if index = 1 then defaultDbPath else stateDb stateDir index⟩ := by
  unfold parseConfig newCollectorToml at read
  rw [← joined_append] at read
  obtain ⟨ds, said, rest⟩ := Option.bind_eq_some_iff.mp read
  have spoken := spoken_new right choice port index stateDir notifyCmd ratesPath
  obtain ⟨rfl, -⟩ := (Reader.statements_joined right spoken ds).mp said
  split at rest
  · rw [rootValue_listen, rootValue_dbPath] at rest
    simp only [setting, right.texts_list, Option.bind_eq_bind, Option.bind_some] at rest
    by_cases first : index = 1
    · simp only [if_pos first, Option.bind_some] at rest ⊢
      exact (Option.some.inj rest).symm
    · simp only [if_neg first, right.text_str, Option.bind_some] at rest ⊢
      exact (Option.some.inj rest).symm
  · cases rest

/-! ## The file of the screen -/

/-- The keys of a server. -/
def serverPairs (r : Reader V) (p : String × ℕ) : List (String × V) :=
  [("name", r.value (.str p.1)), ("url", r.value (.str (localUrl p.2)))]

def serverStatements (r : Reader V) (p : String × ℕ) : List (Statement V) :=
  .nothing :: .header (.element ["server"]) :: (serverPairs r p).map fun e => .pair [e.1] e.2

def lssStatements (r : Reader V) : List (String × ℕ) → List (Statement V)
  | [p] => [.nothing, .pair ["url"] (r.value (.str (localUrl p.2)))]
  | ports => .nothing :: ports.flatMap (serverStatements r)

/-- Comments and blank lines aside, the servers are elements of one array. -/
theorem servers_located (ports : List (String × ℕ)) (h : Header) :
    (located h (ports.flatMap (serverStatements r))).filter (fun d => !d.2.isNothing) =
      (ports.map (serverPairs r)).flatMap fun b =>
        (.element ["server"], .header (.element ["server"])) ::
          b.map fun e => (.element ["server"], .pair [e.1] e.2) := by
  induction ports generalizing h with
  | nil => simp [located]
  | cons p ports ih =>
      simp [serverStatements, serverPairs, located, Statement.under, ih]

include correct

theorem accepts_lss (ports : List (String × ℕ)) :
    r.accepts (located .root (lssStatements r ports)) := by
  have listed : r.accepts (located .root (.nothing :: ports.flatMap (serverStatements r))) := by
    have blocks := correct.elements "server" (ports.map (serverPairs r)) fun b hb => by
      obtain ⟨p, -, rfl⟩ := List.mem_map.mp hb
      simp [serverPairs]
    rw [← servers_located ports .root] at blocks
    exact (correct.lawful.noted _).mpr blocks
  unfold lssStatements
  split
  · rename_i p
    exact (correct.lawful.noted _).mpr (Reader.accepts_key correct "url" _)
  · exact listed

/-- The lines of the file are read one by one. -/
theorem spoken_lss (ports : List (String × ℕ)) :
    Spoken r.read (lssToml ports) (lssStatements r ports) := by
  have none_behind : Toml.Trailing [] := ⟨Or.inl rfl, by simp⟩
  have url (port : ℕ) : r.read ["url = \"http://127.0.0.1:".toList ++ (toString port).toList ++
      ['"']] = some (.pair ["url"] (r.value (.str (localUrl port)))) := by
    have key := read_key correct "url = " "url" (by decide) ⟨by decide, by decide⟩ (localUrl port)
      none_behind
    rw [tomlStr_localUrl] at key
    simpa using key
  have header : r.read ["[[server]]".toList] = some (.header (.element ["server"])) := by
    have bare : Toml.Bare "server".toList := ⟨by decide, by decide⟩
    exact correct.lawful.line (.element ["server".toList]) ⟨by simp, by simpa using bare⟩
  have blocks (ports : List (String × ℕ)) : Spoken r.read
      (ports.flatMap fun p => [[], "[[server]]".toList, "name = ".toList ++ Setup.tomlStr p.1,
        "url = \"http://127.0.0.1:".toList ++ (toString p.2).toList ++ ['"']])
      (ports.flatMap (serverStatements r)) := by
    induction ports with
    | nil => exact .nil
    | cons p ports ih =>
        have name := read_key correct "name = " "name" (by decide) ⟨by decide, by decide⟩ p.1
          none_behind
        rw [List.append_nil] at name
        exact .cons (read_blank correct.lawful) (.cons header (.cons name (.cons (url p.2) ih)))
  have one : Toml.Trailing "# written by lss setup".toList :=
    .of_text rfl (by decide) (by decide)
  have several : Toml.Trailing <| String.toList
    "# written by lss setup: one [[server]] per LLM server on this machine ([ and ] switch)" :=
    .of_text rfl (by decide) (by decide)
  match ports with
  | [] => exact .cons (read_comment correct several) .nil
  | [p] => exact .cons (read_comment correct one) (.cons (url p.2) .nil)
  | p :: q :: rest => exact .cons (read_comment correct several) (blocks (p :: q :: rest))

/-- Every server is put behind the others. -/
theorem servers_read (ports : List (String × ℕ)) (h : Header) (c : ClientConfig) :
    (located h (ports.flatMap (serverStatements r))).foldlM (ClientConfig.read r) c =
      some { c with server := c.server ++ ports.map fun p => ⟨p.1, localUrl p.2, ""⟩ } := by
  induction ports generalizing h c with
  | nil => simp [located]
  | cons p ports ih =>
      simp [serverStatements, serverPairs, located, Statement.under, ClientConfig.read,
        ClientConfig.setServer, ServerEntry.set, correct.text_str, ih]

omit correct in
theorem servers_one (port : ℕ) (fits : port < 2 ^ 16) :
    (servers { url := localUrl port }).map (fun s => portOf s.2) = [some port] := by
  have resolved : resolveUrl { url := localUrl port } = localUrl port := by
    unfold resolveUrl
    rw [trim_localUrl, if_neg (localUrl_ne port), bareUrl_localUrl]
  simp [servers, resolved, portOf_localUrl fits]

omit correct in
theorem servers_listed {ports : List (String × ℕ)} (some_port : ports ≠ [])
    (fits : ∀ p ∈ ports, p.2 < 2 ^ 16) :
    (servers { server := ports.map fun p => ⟨p.1, localUrl p.2, ""⟩ }).map
      (fun s => portOf s.2) = ports.map fun p => some p.2 := by
  have kept : (ports.map fun p => (⟨p.1, localUrl p.2, ""⟩ : ServerEntry)).filter
      (fun s => trim s.url ≠ "") = ports.map fun p => ⟨p.1, localUrl p.2, ""⟩ := by
    rw [List.filter_eq_self]
    intro s hs
    obtain ⟨p, -, rfl⟩ := List.mem_map.mp hs
    simpa [trim_localUrl] using localUrl_ne p.2
  unfold servers
  dsimp only
  rw [kept, if_neg (by simpa using some_port), List.map_map, List.map_map]
  refine List.map_congr_left fun p hp => ?_
  simp only [Function.comp_apply, trim_localUrl, bareUrl_localUrl]
  exact portOf_localUrl (fits p hp)

/-- The file of the screen names the ports it was written with, in order. -/
theorem namedPorts_lss {ports : List (String × ℕ)} (some_port : ports ≠ [])
    (fits : ∀ p ∈ ports, p.2 < 2 ^ 16) :
    namedPorts r (joined (lssToml ports)) = some (ports.map fun p => some p.2) := by
  have said : r.statements (joined (lssToml ports)) =
      some (located .root (lssStatements r ports)) :=
    (Reader.statements_joined correct (spoken_lss correct ports) _).mpr
      ⟨rfl, accepts_lss correct ports⟩
  unfold namedPorts parseClientConfig
  rw [said, Option.bind_some]
  match ports with
  | [p] =>
      have config : (located .root (lssStatements r [p])).foldlM (ClientConfig.read r) {} =
          some { url := localUrl p.2 } := by
        simp [lssStatements, located, Statement.under, ClientConfig.read, ClientConfig.set,
          correct.text_str]
      rw [config, Option.map_some, servers_one p.2 (fits p List.mem_cons_self)]
      rfl
  | p :: q :: rest =>
      have config : (located .root (lssStatements r (p :: q :: rest))).foldlM
          (ClientConfig.read r) {} =
            some { server := (p :: q :: rest).map fun p => ⟨p.1, localUrl p.2, ""⟩ } :=
        servers_read correct (p :: q :: rest) .root {}
      rw [config, Option.map_some, servers_listed some_port fits]

end Texts

end Lss.Analysis.SetupTexts
