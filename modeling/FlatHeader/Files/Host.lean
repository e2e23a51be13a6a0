import FlatHeader.Files.FileSystem

/-!
# Hosts

What a program finds on the computer it runs on: a file system in which some places are devices,
and two output channels. A device looks like a file from the outside, but it is none, and what is
written to it does not stay there. Some directories show the state of the system, and nothing can be
put in them.
-/

namespace FlatHeader

open Text

/-- What becomes of that which is written to a device. -/
inductive Device where
  /-- It is gone. -/
  | sink
  /-- There is never room for it. -/
  | full
  /-- It is shown on a terminal, but there is none. -/
  | terminal
  /-- It goes to the channel for results. -/
  | output
  /-- It goes to the channel for messages. -/
  | messages
deriving DecidableEq

/-- A file system with the devices in it, and what has been written to the output channels. -/
structure Host where
  files : FileSystem
  devices : List (Place × Device) := []
  /-- The directories in which no file can be made. -/
  closed : List Place := []
  stdout : Text := []
  stderr : Text := []

namespace Host

/-- The host with a device at a place. -/
def addDevice (h : Host) (place : Place) (d : Device) : Host :=
  { h with
    files := (h.files.makeDirectory place.tail).put place (.file none)
    devices := (place, d) :: h.devices }

/-- The device that a path leads to. -/
def deviceAt? (h : Host) (path : Text) : Option Device :=
  match h.files.placeToWrite path with
  | .ok place => (h.devices.find? (·.1 == place)).map Prod.snd
  | .error _ => none

/-- Whether a path leads to a file, which a device is not. -/
def isFile (h : Host) (path : Text) : Bool :=
  (h.deviceAt? path).isNone && h.files.isFile path

/-- The text in the file that a path leads to. From a device nothing comes. -/
def readText (h : Host) (path : Text) : Except FileError Text :=
  if (h.deviceAt? path).isSome then .ok [] else h.files.readText path

/-- The host after a text is written to a device. -/
def writeDevice (h : Host) (t : Text) : Device → Except FileError Host
  | .sink => .ok h
  | .full => .error (.system "No space left on device" 28)
  | .terminal => .error (.system "No such device or address" 6)
  | .output => .ok { h with stdout := h.stdout ++ t }
  | .messages => .ok { h with stderr := h.stderr ++ t }

/-- Whether a path leads to a file that would have to be made in a closed directory. -/
def isClosedTo (h : Host) (path : Text) : Bool :=
  match h.files.placeToWrite path with
  | .ok place => h.closed.contains place.tail && (h.files.entry? place).isNone
  | .error _ => false

/-- The host after a text is written to the file or device that a path leads to. -/
def writeText (h : Host) (path contents : Text) : Except FileError Host :=
  match h.deviceAt? path with
  | some d => h.writeDevice contents d
  | none =>
    if h.isClosedTo path then .error .notFound
    else (h.files.writeText path contents).map fun files => { h with files }

/-! ## The usual places -/

/-- The place that the names in a path from the root lead to. -/
def placeOf (path : String) : Place := ((splitOn '/' path.toList).filter (· ≠ [])).reverse

/-- Directories that are there on every host. -/
def usualDirectories : List String :=
  ["/bin", "/boot", "/dev/pts", "/dev/shm", "/etc", "/home", "/lib", "/media", "/mnt", "/opt",
    "/proc", "/root", "/run", "/sbin", "/srv", "/sys", "/tmp", "/usr/bin", "/usr/include",
    "/usr/lib", "/usr/local", "/usr/sbin", "/usr/share", "/usr/src", "/var/log", "/var/tmp"]

/-- Devices that are there on every host. -/
def usualDevices : List (String × Device) :=
  [("/dev/null", .sink), ("/dev/zero", .sink), ("/dev/full", .full), ("/dev/random", .sink),
    ("/dev/urandom", .sink), ("/dev/tty", .terminal), ("/dev/stdin", .sink),
    ("/dev/stdout", .output), ("/dev/stderr", .messages), ("/dev/fd/0", .sink),
    ("/dev/fd/1", .output), ("/dev/fd/2", .messages), ("/proc/self/fd/0", .sink),
    ("/proc/self/fd/1", .output), ("/proc/self/fd/2", .messages)]

/-- Directories that show the processes of the system and what they have opened. -/
def processDirectories : List String := ["/proc", "/proc/self", "/proc/self/fd", "/dev/fd"]

/-- The host with the directories and devices that are there on every host. -/
def withUsualPlaces (h : Host) : Host :=
  let h := usualDirectories.foldl
    (fun h path => { h with files := h.files.makeDirectory (placeOf path) }) h
  let h := { h with closed := processDirectories.map placeOf }
  usualDevices.foldl (fun h (path, d) => h.addDevice (placeOf path) d) h

end Host

/-- Actions on a host that is passed along. Only writing changes it. -/
instance : FileAccess (StateM Host) where
  isFile path := fun h => (h.isFile path, h)
  read path := fun h => (h.readText path, h)
  write path contents := fun h =>
    match h.writeText path contents with
    | .ok h => (.ok (), h)
    | .error e => (.error e, h)

end FlatHeader
