import ThreadWeave.Rust.Str

/-!
# What a component prints when it starts

`startup.rs`: a banner and a JSON object, both with the address of Redis and not
its credentials. `address_without_credentials` drops what stands between the first
`://` and the last `@`. That is right for the userinfo of a URL as one writes it.
But the URL parser drops tabs and line breaks, so a URL can have a userinfo
without a `://` before it; and the `user` and `pass` parameters of a URL for a Unix
socket stand in its query, which only an `@` in the fragment hides.

* `RedisUrl` — the URLs by the two places they have for credentials, and
  `RedisUrl.Agrees` — two URLs that differ in nothing else.
* `address_of_split`, `address_of_none` — what the printed address keeps of the
  text behind a `://`, and of a text without one.
* `startup_output_hides` — exactly when no other credentials, nor their absence,
  change what is printed.
-/

namespace ThreadWeave.Startup

/-! ## The configuration -/

structure RedisConfig where
  url : String
  workerMembershipTtlSeconds : Nat
deriving DecidableEq

structure BrokerConfig where
  keyPrefix : String
  taskDestination : String
deriving DecidableEq

structure Config where
  redis : RedisConfig
  broker : BrokerConfig
deriving DecidableEq

def Config.withUrl (config : Config) (url : String) : Config :=
  { config with redis := { config.redis with url := url } }

/-! ## The output -/

/-- `DESCRIPTION`. -/
def description : String :=
  "A language-agnostic, resource-aware distributed execution engine for modern " ++
  "workloads. ThreadWeave orchestrates tasks, scheduling, resources, and observability " ++
  "while letting any language provide its own native runtime through a stable execution " ++
  "protocol."

/-- `PROTOCOL_VERSIONS`. -/
def protocolVersions : String :=
  "common/v1, artifacts/v1, broker/v1, execution/v1, runtime/v1"

/-- `PROTOCOLS`. -/
def protocols : List String :=
  ["common/v1", "artifacts/v1", "broker/v1", "execution/v1", "runtime/v1"]

/-- `CARGO_PKG_VERSION`. -/
def programVersion : String := "0.1.10"

def addressWithoutCredentials (address : String) : String :=
  match Rust.splitOnce address "://" with
  | none => address
  | some (scheme, remainder) =>
      match Rust.rsplitOnce remainder '@' with
      | none => address
      | some (_, endpoint) => scheme ++ "://" ++ endpoint

/-- The banner up to the name of the component. -/
def bannerHead : String :=
  "\n" ++
  "  _______ _                        _ __          __\n" ++
  " |__   __| |                      | |\\ \\        / /\n" ++
  "    | |  | |__  _ __ ___  __ _  __| |\\ \\  /\\  / /__  __ ___   _____\n" ++
  "    | |  | '_ \\| '__/ _ \\/ _` |/ _` | \\ \\/  \\/ / _ \\/ _` \\ \\ / / _ \\\n" ++
  "    | |  | | | | | |  __/ (_| | (_| |  \\  /\\  /  __/ (_| |\\ V /  __/\n" ++
  "    |_|  |_| |_|_|  \\___|\\__,_|\\__,_|   \\/  \\/ \\___|\\__,_| \\_/ \\___|\n" ++
  "\n " ++ description ++ "\n\n" ++
  " ┌──────────────────────────────────────────────────────────────────────\n" ++
  " │ Component       "

/-- The banner between the component and the first address. -/
def bannerVersions : String :=
  "\n │ Program version v" ++ programVersion ++ "\n │ Protocols       " ++ protocolVersions ++
  "\n │ Broker          redis · "

/-- The end of the banner. -/
def bannerFoot : String :=
  "\n └──────────────────────────────────────────────────────────────────────\n\n"

def printBannerTo (config : Config) (component : String) : String :=
  let redisAddress := addressWithoutCredentials config.redis.url
  let resultPrefix := config.broker.keyPrefix ++ ":results"
  bannerHead ++ component ++ bannerVersions ++ redisAddress ++
    "\n │ Result backend  redis · " ++ redisAddress ++ " · prefix " ++ resultPrefix ++ bannerFoot

/-- `serde_json::Value`, as far as `json!` builds it here. -/
inductive Value where
  | string (text : String)
  | array (items : List Value)
  | object (fields : List (String × Value))

/-- The object of `print_json_to`. -/
def startupValue (config : Config) (component : String) : Value :=
  let redisAddress := addressWithoutCredentials config.redis.url
  .object
    [("type", .string "startup"),
     ("name", .string "ThreadWeave"),
     ("description", .string description),
     ("component", .string component),
     ("program_version", .string programVersion),
     ("protocols", .array (protocols.map .string)),
     ("broker", .object
       [("transport", .string "redis"),
        ("address", .string redisAddress),
        ("key_prefix", .string config.broker.keyPrefix)]),
     ("result_backend", .object
       [("transport", .string "redis"),
        ("address", .string redisAddress),
        ("key_prefix", .string (config.broker.keyPrefix ++ ":results"))])]

/-- `toWriter` is `serde_json::to_writer`. -/
def printJsonTo (toWriter : Value → String) (config : Config) (component : String) : String :=
  toWriter (startupValue config component) ++ "\n"

/-! ## Where a URL has its credentials -/

/-- The URL parser drops tabs and line breaks, wherever they stand. -/
def isDropped (c : Char) : Bool := c == '\t' || c == '\n' || c == '\r'

/-- What the parser reads of a text. -/
def kept (text : String) : List Char := text.toList.filter fun c => !isDropped c

/-- The text before the first colon. -/
structure Scheme where
  text : String
  noColon : ':' ∉ text.toList

/-- The two slashes before an authority, with what is dropped beside them. -/
structure Slashes where
  text : String
  two : kept text = ['/', '/']

/-- What a URL for a Unix socket has between the colon and the query: a path, or two
slashes, an authority that is not read, and a path. -/
structure Path where
  text : String
  absolute : (kept text).head? = some '/'
  ends : '?' ∉ text.toList ∧ '#' ∉ text.toList

def hexDigit (c : Char) : Option Nat :=
  if '0' ≤ c ∧ c ≤ '9' then some (c.toNat - '0'.toNat)
  else if 'a' ≤ c ∧ c ≤ 'f' then some (c.toNat - 'a'.toNat + 10)
  else if 'A' ≤ c ∧ c ≤ 'F' then some (c.toNat - 'A'.toNat + 10)
  else none

/-- How `form_urlencoded` decodes a name, as far as that can give ASCII. -/
def decodeName : List Char → List Char
  | [] => []
  | '+' :: cs => ' ' :: decodeName cs
  | '%' :: a :: b :: cs =>
      match hexDigit a, hexDigit b with
      | some x, some y => Char.ofNat (16 * x + y) :: decodeName cs
      | _, _ => '%' :: decodeName (a :: b :: cs)
  | c :: cs => c :: decodeName cs

/-- A parameter of a query. -/
structure Parameter where
  text : String
  ends : '&' ∉ text.toList ∧ '#' ∉ text.toList
deriving DecidableEq

namespace Parameter

def name (parameter : Parameter) : List Char :=
  decodeName ((kept parameter.text).takeWhile (· ≠ '='))

/-- `query.get("user")` or `query.get("pass")` finds it. -/
def isCredential (parameter : Parameter) : Bool :=
  parameter.name == "user".toList || parameter.name == "pass".toList

end Parameter

/-- What stands behind the query: a fragment, or blanks that the parser trims. -/
structure Ending where
  text : String
  closes : text.toList.head? = some '#' ∨ text.toList.all (· ≤ ' ')

/-- The parameters, each behind its separator. -/
def queryText (separator : String) : List Parameter → String
  | [] => ""
  | parameter :: rest => separator ++ parameter.text ++ queryText "&" rest

def userinfoText : Option String → String
  | none => ""
  | some userinfo => userinfo ++ "@"

/-- A URL for a host, with its userinfo if it has one, or for a Unix socket. -/
inductive RedisUrl where
  | host (scheme : Scheme) (slashes : Slashes) (userinfo : Option String) (rest : String)
  | unix (scheme : Scheme) (path : Path) (parameters : List Parameter) (ending : Ending)

namespace RedisUrl

/-- The text before the place of the credentials. -/
def front : RedisUrl → String
  | host scheme slashes _ _ => scheme.text ++ ":" ++ slashes.text
  | unix scheme path _ _ => scheme.text ++ ":" ++ path.text

/-- The text from there on. -/
def back : RedisUrl → String
  | host _ _ userinfo rest => userinfoText userinfo ++ rest
  | unix _ _ parameters ending => queryText "?" parameters ++ ending.text

def text (url : RedisUrl) : String := url.front ++ url.back

/-- The URLs differ in their credentials at most: which there are, where among the
parameters they stand, and what they are. -/
inductive Agrees : RedisUrl → RedisUrl → Prop where
  | host (scheme : Scheme) (slashes : Slashes) (userinfo userinfo' : Option String)
      (rest : String) :
      Agrees (host scheme slashes userinfo rest) (host scheme slashes userinfo' rest)
  | unix (scheme : Scheme) (path : Path) (parameters parameters' : List Parameter)
      (ending : Ending)
      (h : parameters.filter (fun p => !p.isCredential) =
        parameters'.filter fun p => !p.isCredential) :
      Agrees (unix scheme path parameters ending) (unix scheme path parameters' ending)

/-- A `://` stands before the place of the credentials. Behind it follow the userinfo
at once, or an `@` that is not the end of the userinfo; of a URL for a Unix socket, an
`@` in the fragment. -/
def Covered : RedisUrl → Prop
  | host _ slashes _ rest =>
      slashes.text = "//" ∨ (∃ gap, slashes.text = "//" ++ gap) ∧ '@' ∈ rest.toList
  | unix scheme path _ ending =>
      "://".toList <:+: (scheme.text ++ ":" ++ path.text).toList ∧ '@' ∈ ending.text.toList

end RedisUrl

/-! ## What is left of an address -/

/-- What stands behind the last `@`, or everything. -/
def afterAt (s : String) : String :=
  match Rust.rsplitOnce s '@' with
  | none => s
  | some (_, rest) => rest

theorem afterAt_of_split {s a b : String} (hs : s = a ++ String.singleton '@' ++ b)
    (hb : '@' ∉ b.toList) : afterAt s = b := by
  unfold afterAt
  rw [Rust.rsplitOnce_eq_some.mpr ⟨hs, hb⟩]

theorem afterAt_of_notMem {s : String} (h : '@' ∉ s.toList) : afterAt s = s := by
  unfold afterAt
  rw [Rust.rsplitOnce_eq_none.mpr h]

/-- A text with an `@` is cut at its last one. -/
theorem exists_last_at {s : String} (h : '@' ∈ s.toList) :
    ∃ a b, s = a ++ String.singleton '@' ++ b ∧ '@' ∉ b.toList := by
  cases hsplit : Rust.rsplitOnce s '@' with
  | none => exact absurd h (Rust.rsplitOnce_eq_none.mp hsplit)
  | some p => exact ⟨p.1, p.2, Rust.rsplitOnce_eq_some.mp hsplit⟩

/-- What stands before a text with an `@` is dropped. -/
theorem afterAt_append (a : String) {b : String} (h : '@' ∈ b.toList) :
    afterAt (a ++ b) = afterAt b := by
  rcases exists_last_at h with ⟨u, v, rfl, hv⟩
  have hwhole : a ++ (u ++ String.singleton '@' ++ v) = (a ++ u) ++ String.singleton '@' ++ v := by
    simp only [String.append_assoc]
  rw [afterAt_of_split hwhole hv, afterAt_of_split rfl hv]

/-- A text without an `@` is kept. -/
theorem afterAt_append_of_notMem (a : String) {b : String} (h : '@' ∉ b.toList) :
    afterAt (a ++ b) = afterAt a ++ b := by
  by_cases ha : '@' ∈ a.toList
  · rcases exists_last_at ha with ⟨u, v, rfl, hv⟩
    have hvb : '@' ∉ (v ++ b).toList := by
      rw [String.toList_append, List.mem_append, not_or]
      exact ⟨hv, h⟩
    have hwhole : u ++ String.singleton '@' ++ v ++ b =
        u ++ String.singleton '@' ++ (v ++ b) := by
      simp only [String.append_assoc]
    rw [afterAt_of_split hwhole hvb, afterAt_of_split rfl hv]
  · have hab : '@' ∉ (a ++ b).toList := by
      rw [String.toList_append, List.mem_append, not_or]
      exact ⟨ha, h⟩
    rw [afterAt_of_notMem hab, afterAt_of_notMem ha]

/-! ## The printed address -/

/-- Behind the first `://`, what follows the last `@` is kept. -/
theorem address_of_split {front a gap : String}
    (h : Rust.splitOnce front "://" = some (a, gap)) (back : String) :
    addressWithoutCredentials (front ++ back) = a ++ "://" ++ afterAt (gap ++ back) := by
  have hwhole := Rust.splitOnce_spec (Rust.splitOnce_append_right h back)
  unfold addressWithoutCredentials afterAt
  rw [Rust.splitOnce_append_right h back]
  dsimp only
  cases Rust.rsplitOnce (gap ++ back) '@' with
  | none => exact hwhole
  | some p => rfl

/-- A text without a `://` is kept, up to a word without its characters. -/
theorem address_of_none {front word : String} (hword : word ≠ "")
    (hchars : ∀ c ∈ word.toList, c ∉ "://".toList) (h : Rust.splitOnce front "://" = none)
    (back : String) :
    addressWithoutCredentials (front ++ (word ++ back)) =
      front ++ word ++ addressWithoutCredentials back := by
  rw [← String.append_assoc]
  unfold addressWithoutCredentials
  rw [Rust.splitOnce_append_word (by decide) hword hchars h]
  cases Rust.splitOnce back "://" with
  | none => rfl
  | some p =>
      dsimp only [Option.map_some]
      cases Rust.rsplitOnce p.2 '@' with
      | none => rfl
      | some p' => simp only [String.append_assoc]

/-- The userinfo is dropped. -/
theorem afterAt_userinfo (userinfo : Option String) (rest : String) :
    afterAt (userinfoText userinfo ++ rest) = afterAt rest := by
  cases userinfo with
  | none => rw [userinfoText, String.empty_append]
  | some u =>
      by_cases hat : '@' ∈ rest.toList
      · exact afterAt_append _ hat
      · rw [afterAt_of_notMem hat]
        exact afterAt_of_split (a := u) rfl hat

/-! ### Of a URL for a host -/

theorem mem_slashes {slashes : Slashes} {c : Char} (h : c ∈ slashes.text.toList) :
    isDropped c = true ∨ c = '/' := by
  cases hc : isDropped c with
  | true => exact Or.inl rfl
  | false =>
      have hkept : c ∈ kept slashes.text := by simp [kept, h, hc]
      rw [slashes.two] at hkept
      simpa using hkept

/-- The first `://` is the one behind the scheme, if the slashes stand together. -/
theorem splitOnce_host (scheme : Scheme) (gap : String) :
    Rust.splitOnce (scheme.text ++ ":" ++ ("//" ++ gap)) "://" = some (scheme.text, gap) := by
  have hdelimiter : "://".toList = ':' :: ['/', '/'] := by decide
  have hsame : scheme.text ++ ":" ++ ("//" ++ gap) = scheme.text ++ "://" ++ gap := by
    rw [← String.toList_inj]
    simp
  rw [hsame]
  exact Rust.splitOnce_append hdelimiter scheme.noColon gap

/-- And if they do not, there is none before the userinfo. -/
theorem splitOnce_host_of_apart {scheme : Scheme} {slashes : Slashes}
    (h : ¬ ∃ gap, slashes.text = "//" ++ gap) :
    Rust.splitOnce (scheme.text ++ ":" ++ slashes.text) "://" = none := by
  have hcolon : ':' ∉ slashes.text.toList := fun hmem => by
    rcases mem_slashes hmem with hdropped | hslash
    · exact absurd hdropped (by decide)
    · exact absurd hslash (by decide)
  rw [← Option.not_isSome_iff_eq_none, Rust.splitOnce_isSome]
  rintro ⟨u, v, huv⟩
  have hfront : u ++ ':' :: ('/' :: '/' :: v) = scheme.text.toList ++ ':' :: slashes.text.toList := by
    simpa using huv
  rcases List.append_eq_append_iff.mp hfront with ⟨l, hscheme, hl⟩ | ⟨l, hu, hl⟩
  · cases l with
    | nil =>
        refine h ⟨String.ofList v, ?_⟩
        rw [← String.toList_inj]
        simpa using (List.cons.inj hl).2.symm
    | cons c l =>
        rw [List.cons_append, List.cons.injEq] at hl
        exact scheme.noColon (by simp [hscheme, ← hl.1])
  · cases l with
    | nil =>
        refine h ⟨String.ofList v, ?_⟩
        rw [← String.toList_inj]
        simpa using (List.cons.inj hl).2
    | cons c l =>
        rw [List.cons_append, List.cons.injEq] at hl
        exact hcolon (by simp [hl.2])

/-! ### Of URLs that differ in their credentials -/

theorem address_of_covered {url url' : RedisUrl} (h : url.Agrees url') (hcovered : url.Covered) :
    addressWithoutCredentials url.text = addressWithoutCredentials url'.text := by
  cases h with
  | host scheme slashes userinfo userinfo' rest =>
      have hgap : ∃ gap, slashes.text = "//" ++ gap ∧ (gap = "" ∨ '@' ∈ rest.toList) := by
        rcases hcovered with htwo | ⟨⟨gap, hgap⟩, hat⟩
        · exact ⟨"", by rw [htwo, String.append_empty], Or.inl rfl⟩
        · exact ⟨gap, hgap, Or.inr hat⟩
      rcases hgap with ⟨gap, hslashes, hgap⟩
      have haddress (u : Option String) :
          addressWithoutCredentials (RedisUrl.host scheme slashes u rest).text =
            scheme.text ++ "://" ++ afterAt rest := by
        rw [RedisUrl.text, RedisUrl.front, hslashes, RedisUrl.back,
          address_of_split (splitOnce_host scheme gap)]
        rcases hgap with rfl | hat
        · rw [String.empty_append, afterAt_userinfo]
        · rw [← String.append_assoc, afterAt_append _ hat]
      rw [haddress, haddress]
  | unix scheme path parameters parameters' ending hparameters =>
      rcases hcovered with ⟨hsplit, hat⟩
      rw [← Rust.splitOnce_isSome, Option.isSome_iff_exists] at hsplit
      rcases hsplit with ⟨⟨a, gap⟩, hsplit⟩
      have haddress (ps : List Parameter) :
          addressWithoutCredentials (RedisUrl.unix scheme path ps ending).text =
            a ++ "://" ++ afterAt ending.text := by
        rw [RedisUrl.text, RedisUrl.front, RedisUrl.back, address_of_split hsplit,
          ← String.append_assoc, afterAt_append _ hat]
      rw [haddress, haddress]

/-- What stands before a last parameter. -/
theorem exists_queryText_snoc (separator : String) (parameters : List Parameter) :
    ∃ before, ∀ parameter : Parameter,
      queryText separator (parameters ++ [parameter]) = before ++ parameter.text := by
  induction parameters generalizing separator with
  | nil =>
      refine ⟨separator, ?_⟩
      intro parameter
      rw [List.nil_append, queryText, queryText, String.append_empty]
  | cons x parameters ih =>
      rcases ih "&" with ⟨before, hbefore⟩
      refine ⟨separator ++ x.text ++ before, ?_⟩
      intro parameter
      rw [List.cons_append, queryText, hbefore]
      simp only [String.append_assoc]

/-- Two passwords, one of them longer. -/
def emptyPassword : Parameter := ⟨"pass=", by decide⟩

def longerPassword : Parameter := ⟨"pass=x", by decide⟩

/-- Of a URL that does not cover its credentials, another userinfo shows, or that
there is one. -/
theorem exists_differing_host {scheme : Scheme} {slashes : Slashes} {userinfo : Option String}
    {rest : String} (h : ¬ (RedisUrl.host scheme slashes userinfo rest).Covered) :
    ∃ u u', (addressWithoutCredentials (RedisUrl.host scheme slashes u rest).text).length ≠
      (addressWithoutCredentials (RedisUrl.host scheme slashes u' rest).text).length := by
  have hu : 'u' ∉ "://".toList := by decide
  rw [RedisUrl.Covered, not_or, not_and] at h
  by_cases hgap : ∃ gap, slashes.text = "//" ++ gap
  · -- the gap is dropped together with a userinfo only
    rcases hgap with ⟨gap, hslashes⟩
    have hrest : '@' ∉ rest.toList := h.2 ⟨gap, hslashes⟩
    have hat : '@' ∉ gap.toList := fun hmem => by
      have hin : '@' ∈ slashes.text.toList := by simp [hslashes, hmem]
      rcases mem_slashes hin with hdropped | hslash
      · exact absurd hdropped (by decide)
      · exact absurd hslash (by decide)
    have hlong : 0 < gap.length := by
      rw [Nat.pos_iff_ne_zero, ne_eq, String.length_eq_zero_iff]
      rintro rfl
      exact h.1 (by rw [hslashes, String.append_empty])
    have hwithout : '@' ∉ (gap ++ rest).toList := by
      rw [String.toList_append, List.mem_append, not_or]
      exact ⟨hat, hrest⟩
    refine ⟨none, some "u", ?_⟩
    simp only [RedisUrl.text, RedisUrl.front, RedisUrl.back, hslashes,
      address_of_split (splitOnce_host scheme gap)]
    have hwith : gap ++ (userinfoText (some "u") ++ rest) =
        gap ++ "u" ++ String.singleton '@' ++ rest := by
      simp only [userinfoText, String.append_assoc]
      rfl
    rw [userinfoText, String.empty_append, afterAt_of_notMem hwithout, hwith,
      afterAt_of_split rfl hrest]
    simp only [String.length_append]
    omega
  · refine ⟨some "u", some "uu", ?_⟩
    have hnone : Rust.splitOnce (scheme.text ++ ":" ++ slashes.text) "://" = none :=
      splitOnce_host_of_apart hgap
    have haddress (word : String) (hword : word ≠ "")
        (hchars : ∀ c ∈ word.toList, c ∉ "://".toList) :
        addressWithoutCredentials (RedisUrl.host scheme slashes (some word) rest).text =
          scheme.text ++ ":" ++ slashes.text ++ word ++ addressWithoutCredentials ("@" ++ rest) := by
      have hback : userinfoText (some word) ++ rest = word ++ ("@" ++ rest) :=
        String.append_assoc
      rw [RedisUrl.text, RedisUrl.front, RedisUrl.back, hback,
        address_of_none hword hchars hnone]
    have hone : "u".length = 1 := by decide
    have htwo : "uu".length = 2 := by decide
    rw [haddress "u" (by decide) (by simp), haddress "uu" (by decide) (by simp)]
    simp only [String.length_append, hone, htwo]
    omega

/-- And of one for a Unix socket, another password does. -/
theorem exists_differing_unix {scheme : Scheme} {path : Path} {parameters : List Parameter}
    {ending : Ending} (h : ¬ (RedisUrl.unix scheme path parameters ending).Covered) :
    ∃ ps ps', parameters.filter (fun p => !p.isCredential) =
        ps.filter (fun p => !p.isCredential) ∧
      parameters.filter (fun p => !p.isCredential) = ps'.filter (fun p => !p.isCredential) ∧
      (addressWithoutCredentials (RedisUrl.unix scheme path ps ending).text).length ≠
        (addressWithoutCredentials (RedisUrl.unix scheme path ps' ending).text).length := by
  have hempty : emptyPassword.isCredential = true := by decide
  have hlonger : longerPassword.isCredential = true := by decide
  have hfive : emptyPassword.text.length = 5 := by decide
  have hsix : longerPassword.text.length = 6 := by decide
  rw [RedisUrl.Covered, not_and, ← Rust.splitOnce_isSome] at h
  cases hsplit : Rust.splitOnce (scheme.text ++ ":" ++ path.text) "://" with
  | none =>
      -- a password that comes first is printed
      refine ⟨emptyPassword :: parameters, longerPassword :: parameters, ?_, ?_, ?_⟩
      · rw [List.filter_cons_of_neg (by simp [hempty])]
      · rw [List.filter_cons_of_neg (by simp [hlonger])]
      · have haddress (p : Parameter) (hp : ∀ c ∈ ("?" ++ p.text).toList, c ∉ "://".toList) :
            addressWithoutCredentials (RedisUrl.unix scheme path (p :: parameters) ending).text =
              scheme.text ++ ":" ++ path.text ++ ("?" ++ p.text) ++
                addressWithoutCredentials (queryText "&" parameters ++ ending.text) := by
          have hword : "?" ++ p.text ≠ "" := by simp
          have hback : queryText "?" (p :: parameters) ++ ending.text =
              ("?" ++ p.text) ++ (queryText "&" parameters ++ ending.text) := String.append_assoc
          rw [RedisUrl.text, RedisUrl.front, RedisUrl.back, hback,
            address_of_none hword hp hsplit]
        rw [haddress emptyPassword (by simp [emptyPassword]),
          haddress longerPassword (by simp [longerPassword])]
        simp only [String.length_append, hfive, hsix]
        omega
  | some p =>
      -- one that comes last is printed
      have hat : '@' ∉ ending.text.toList := h (by rw [hsplit]; rfl)
      refine ⟨parameters ++ [emptyPassword], parameters ++ [longerPassword], ?_, ?_, ?_⟩
      · simp [hempty]
      · simp [hlonger]
      · rcases exists_queryText_snoc "?" parameters with ⟨before, hbefore⟩
        have haddress (q : Parameter) (hq : '@' ∉ q.text.toList) :
            addressWithoutCredentials
                (RedisUrl.unix scheme path (parameters ++ [q]) ending).text =
              p.1 ++ "://" ++ (afterAt (p.2 ++ before) ++ (q.text ++ ending.text)) := by
          have hback : '@' ∉ (q.text ++ ending.text).toList := by
            rw [String.toList_append, List.mem_append, not_or]
            exact ⟨hq, hat⟩
          rw [RedisUrl.text, RedisUrl.front, RedisUrl.back, hbefore, address_of_split hsplit,
            ← afterAt_append_of_notMem _ hback]
          simp only [String.append_assoc]
        rw [haddress emptyPassword (by decide), haddress longerPassword (by decide)]
        simp only [String.length_append, hfive, hsix]
        omega

/-- A URL that does not cover its credentials agrees with two that print differently. -/
theorem exists_differing {url : RedisUrl} (h : ¬ url.Covered) :
    ∃ url₁ url₂, url.Agrees url₁ ∧ url.Agrees url₂ ∧
      (addressWithoutCredentials url₁.text).length ≠
        (addressWithoutCredentials url₂.text).length := by
  cases url with
  | host scheme slashes userinfo rest =>
      rcases exists_differing_host h with ⟨u, u', hlength⟩
      exact ⟨_, _, .host scheme slashes userinfo u rest, .host scheme slashes userinfo u' rest,
        hlength⟩
  | unix scheme path parameters ending =>
      rcases exists_differing_unix h with ⟨ps, ps', hps, hps', hlength⟩
      exact ⟨_, _, .unix scheme path parameters ps ending hps,
        .unix scheme path parameters ps' ending hps', hlength⟩

/-! ## The output and the credentials -/

theorem length_printBannerTo (config : Config) (url component : String) :
    (printBannerTo (config.withUrl url) component).length =
      2 * (addressWithoutCredentials url).length + (bannerHead.length + component.length +
        bannerVersions.length + "\n │ Result backend  redis · ".length + " · prefix ".length +
        (config.broker.keyPrefix ++ ":results").length + bannerFoot.length) := by
  simp only [printBannerTo, Config.withUrl, String.length_append]
  omega

/-- What is printed with a URL does not depend on its credentials, whatever the
component, exactly when the URL covers them. -/
theorem startup_output_hides (toWriter : Value → String) (config : Config) (url : RedisUrl) :
    (∀ url', url.Agrees url' → ∀ component,
      printBannerTo (config.withUrl url.text) component =
        printBannerTo (config.withUrl url'.text) component ∧
      printJsonTo toWriter (config.withUrl url.text) component =
        printJsonTo toWriter (config.withUrl url'.text) component) ↔
    url.Covered := by
  constructor
  · intro hsame
    by_contra hopen
    rcases exists_differing hopen with ⟨url₁, url₂, h₁, h₂, hlength⟩
    have hbanner := congrArg String.length
      ((hsame url₁ h₁ "").1.symm.trans (hsame url₂ h₂ "").1)
    rw [length_printBannerTo, length_printBannerTo] at hbanner
    omega
  · intro hcovered url' hagrees component
    have haddress := address_of_covered hagrees hcovered
    simp only [printBannerTo, printJsonTo, startupValue, Config.withUrl, haddress, and_self]

/-- A URL for a Unix socket with a password. -/
def socketUrl (password : Parameter) : RedisUrl :=
  .unix ⟨"redis+unix", by decide⟩ ⟨"///run/redis.sock", by decide, by decide⟩
    [⟨"user=default", by decide⟩, password] ⟨"", Or.inr (by decide)⟩

def secretPassword : Parameter := ⟨"pass=secret", by decide⟩

def otherPassword : Parameter := ⟨"pass=hunter2", by decide⟩

theorem startup_output_shows_password :
    ¬ ∀ (toWriter : Value → String) (config : Config) (url url' : RedisUrl), url.Agrees url' →
      ∀ component,
        printBannerTo (config.withUrl url.text) component =
          printBannerTo (config.withUrl url'.text) component ∧
        printJsonTo toWriter (config.withUrl url.text) component =
          printJsonTo toWriter (config.withUrl url'.text) component := by
  intro hall
  have hagrees : (socketUrl secretPassword).Agrees (socketUrl otherPassword) :=
    .unix _ _ _ _ _ (by decide)
  have hbanner := (hall (fun _ => "") ⟨⟨"", 30⟩, ⟨"threadweave:broker", "tasks"⟩⟩ _ _ hagrees
    "worker").1
  have hlength := congrArg String.length hbanner
  rw [length_printBannerTo, length_printBannerTo] at hlength
  have hsecret : (addressWithoutCredentials (socketUrl secretPassword).text).length =
      53 := by decide +kernel
  have hother : (addressWithoutCredentials (socketUrl otherPassword).text).length =
      54 := by decide +kernel
  omega

end ThreadWeave.Startup
