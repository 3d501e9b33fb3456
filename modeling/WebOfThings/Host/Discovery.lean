import WebOfThings.Host.Basic

/-!
# Finding things

A description can be fetched from a URL, and many of them from a directory. Discovery puts several sources
one after the other: the things of the host, a directory and the clients; the filter drops things that do
not match, and never an error.

`fetchValue` is what `fetch` and `fetch_directory` share. The URL has to be absolute, there has to be a
client for its scheme, and the client has to consent to the credentials for the URL, without any scheme in
force; then one request is sent, and its payload is decoded in the media type that it reports or else as a
Thing Description. A directory is an array of descriptions or an object of them by id, and one that is wrong
makes the whole directory an error.

`discover` chooses the sources by the method. `Local` asks nobody, `Directory` needs a URL and is an error
without one, and `Any` takes the things of the host, the directory if there is a URL, and every client. A
client that does not support discovery contributes nothing, any other failure is an entry of its own with
the scheme of the client. Sources are asked in this order, the world going from one to the next.
-/

namespace WebOfThings.Host

variable {ω : Type}

/-- The value at a URL, read with the client for its scheme. -/
def fetchValue (h : Host ω) (url : String) (w : ω) : Except HostError Json × ω :=
  match Href.scheme? url with
  | none => (.error (.invalidUrl url), w)
  | some scheme =>
    let scheme := MediaType.lowerCase scheme
    match h.factory? scheme with
    | none => (.error (.noClientForScheme scheme), w)
    | some factory =>
      match factory.client.setSecurity [] (h.credentials.findForHref? url) w with
      | (false, w) => (.error (.securityDeclined url), w)
      | (true, w) =>
        let form : Form := { href := url, contentType := some MediaType.thingDescription }
        match factory.client.read form w with
        | (.error e, w) => (.error (.binding (.client scheme e)), w)
        | (.ok content, w) =>
          match h.codecs.decode content MediaType.thingDescription none with
          | .ok v => (.ok v, w)
          | .error e => (.error (.content url e), w)

/-- The thing that a fetched value describes. -/
def describe (url : String) (v : Json) : Except HostError Thing :=
  match Thing.ofJson v with
  | .ok t => .ok t
  | .error e => .error (.description url e)

/-- The thing whose description is at a URL. -/
def fetch (h : Host ω) (url : String) (w : ω) : Except HostError Thing × ω :=
  match h.fetchValue url w with
  | (.ok v, w) => (describe url v, w)
  | (.error e, w) => (.error e, w)

/-- The things that a directory lists, in an array or in an object by their ids. -/
def listed (url : String) : Json → Except HostError (List Thing)
  | .obj members => (Dict.values members).mapM (describe url)
  | .arr items => items.mapM (describe url)
  | _ => .error (.description url .malformed)

/-- The things of the directory at a URL; all of them have to be right. -/
def fetchDirectory (h : Host ω) (url : String) (w : ω) : Except HostError (List Thing) × ω :=
  match h.fetchValue url w with
  | (.ok v, w) => (listed url v, w)
  | (.error e, w) => (.error e, w)

/-! ## Discovery -/

/-- What discovery finds: a thing or an error. -/
abbrev Finding := Except HostError Thing

/-- The things of the host. -/
def localFindings (h : Host ω) : List Finding := (Dict.values h.things).map fun t => .ok t.thing

/-- The things of a directory, or the error in their place. -/
def directoryFindings (h : Host ω) (url : String) (w : ω) : List Finding × ω :=
  match h.fetchDirectory url w with
  | (.ok things, w) => (things.map .ok, w)
  | (.error e, w) => ([.error e], w)

/-- What the client of a factory finds; one that cannot look for things finds nothing. -/
def clientFindings (filter : ThingFilter) (factory : ClientFactory ω) (w : ω) : List Finding × ω :=
  let failure (e : ClientError) : Finding := .error (.binding (.client factory.scheme e))
  match factory.client.discover filter w with
  | (.error (.unsupported _), w) => ([], w)
  | (.error e, w) => ([failure e], w)
  | (.ok found, w) =>
    (found.map fun
      | .ok t => .ok t
      | .error e => failure e, w)

/-- What the clients of all factories find. -/
def allClientFindings (filter : ThingFilter) : List (ClientFactory ω) → ω → List Finding × ω
  | [], w => ([], w)
  | factory :: rest, w =>
    let (found, w) := clientFindings filter factory w
    let (more, w) := allClientFindings filter rest w
    (found ++ more, w)

/-- The findings that pass a filter; errors do. -/
def keepAccepted (filter : ThingFilter) (found : List Finding) : List Finding :=
  found.filter fun
    | .ok t => filter.accepts t
    | .error _ => true

/-- What discovery finds, source by source. -/
def discover (h : Host ω) (filter : ThingFilter) (w : ω) : List Finding × ω :=
  let hosted := if filter.method = .directory then [] else h.localFindings
  let (listed, w) :=
    match filter.method, filter.url with
    | .local, _ => ([], w)
    | _, some url => h.directoryFindings url w
    | .directory, none => ([.error (.invalidUrl "")], w)
    | .any, none => ([], w)
  let (remote, w) :=
    if filter.method = .any then allClientFindings filter (Dict.values h.factories) w else ([], w)
  (keepAccepted filter (hosted ++ listed ++ remote), w)

end WebOfThings.Host
