/-!
# Kinds of subjects

Every subject of a template is of a kind, and a kind descends from others: what
it does not have itself, it has from the nearest kind above it.  A kind has
members of five forms, which differ in how they are shown and in what comes of
them when they are taken from a subject of the kind.
-/

namespace TaintFlow.Template

/-- A kind: its name, and the name of the family that it belongs to. -/
structure Kind where
  family : String
  name : String
  deriving DecidableEq

/-- The forms of the members of a kind. -/
inductive MemberForm where
  /-- What a sign of the language of templates stands for, as a function of the kind. -/
  | operation
  /-- Any other function of the subjects of the kind. -/
  | method
  /-- A value that is worked out from a subject. -/
  | attribute
  /-- A value that is part of a subject. -/
  | part
  /-- A function of the kind itself. -/
  | ofKind
  deriving DecidableEq

/-- The names of the members of a kind, form by form, with blanks between them. -/
structure MemberNames where
  operations : String := ""
  methods : String := ""
  attributes : String := ""
  parts : String := ""
  ofKind : String := ""

/-- The form of the member of a name, if there is one. -/
def MemberNames.form? (names : MemberNames) (name : String) : Option MemberForm :=
  let has (row : String) : Bool := (row.splitOn " ").contains name
  if name.isEmpty then none
  else if has names.operations then some .operation
  else if has names.methods then some .method
  else if has names.attributes then some .attribute
  else if has names.parts then some .part
  else if has names.ofKind then some .ofKind
  else none

namespace Kind

/-- The family of a kind that needs none in its name. -/
def builtinFamily : String := "builtins"

/-- A kind of that family. -/
def builtin (name : String) : Kind := ⟨builtinFamily, name⟩

/-- A kind of the calendar. -/
def calendar (name : String) : Kind := ⟨"datetime", name⟩

/-- The kind of labelled values. -/
def labelled : Kind := ⟨"taintchain.models.provenance", "TaintedValue"⟩

/-- The kinds that a kind descends from, itself first. -/
def ancestry (kind : Kind) : List Kind :=
  let between := match kind.name with
    | "bool" => [builtin "int"]
    | "datetime" => [calendar "date"]
    | "timezone" => [calendar "tzinfo"]
    | "TaintedValue" => [⟨"pydantic.main", "BaseModel"⟩]
    | _ => []
  if kind.name = "object" then [kind] else kind :: (between ++ [builtin "object"])

/-- The text of a kind. -/
def text (kind : Kind) : String :=
  if kind.family = builtinFamily then s!"<class '{kind.name}'>"
  else s!"<class '{kind.family}.{kind.name}'>"

/-- The name by which messages call a kind. -/
def title (kind : Kind) : String :=
  if kind.family = "datetime" ∨ kind.family = "types" then s!"{kind.family}.{kind.name}"
  else kind.name

/-- The operations that order subjects. -/
def comparisons : String := "__lt__ __le__ __eq__ __ne__ __gt__ __ge__ "

/-- The operations on numbers. -/
def arithmetic : String :=
  "__add__ __radd__ __sub__ __rsub__ __mul__ __rmul__ __mod__ __rmod__ __divmod__ __rdivmod__ " ++
  "__pow__ __rpow__ __neg__ __pos__ __abs__ __bool__ __int__ __float__ __floordiv__ " ++
  "__rfloordiv__ __truediv__ __rtruediv__ "

/-- The operations on whole numbers as rows of bits, and on truth values. -/
def bitwise : String := "__and__ __rand__ __xor__ __rxor__ __or__ __ror__ "

/-- The methods of texts and of bytes. -/
def textMethods : String :=
  "__getnewargs__ replace split rsplit join capitalize title center count expandtabs find " ++
  "partition index ljust lower lstrip rfind rindex rjust rstrip rpartition splitlines strip " ++
  "swapcase translate upper startswith endswith removeprefix removesuffix isascii islower " ++
  "isupper istitle isspace isdigit isalpha isalnum zfill "

/-- The methods of sets that leave them as they are. -/
def setMethods : String :=
  "__contains__ copy difference intersection isdisjoint issubset issuperset __reduce__ " ++
  "__sizeof__ symmetric_difference union "

/-- The members that a kind has itself. -/
def ownMembers (kind : Kind) : MemberNames :=
  match kind.name with
  | "object" =>
    { operations := comparisons ++ "__repr__ __hash__ __str__ __getattribute__ __setattr__ " ++
        "__delattr__ __init__"
      methods := "__reduce_ex__ __reduce__ __getstate__ __format__ __sizeof__ __dir__"
      attributes := "__class__"
      ofKind := "__new__ __subclasshook__ __init_subclass__" }
  | "type" =>
    { operations := "__repr__ __call__ __getattribute__ __setattr__ __delattr__ __init__ " ++
        "__or__ __ror__"
      methods := "mro __subclasses__ __instancecheck__ __subclasscheck__ __dir__ __sizeof__"
      ofKind := "__new__ __prepare__" }
  | "str" =>
    { operations := comparisons ++ "__repr__ __hash__ __str__ __getattribute__ __iter__ " ++
        "__mod__ __rmod__ __len__ __getitem__ __add__ __mul__ __rmul__ __contains__"
      methods := textMethods ++ "encode casefold isdecimal isnumeric isidentifier " ++
        "isprintable format format_map __format__ __sizeof__"
      ofKind := "__new__ maketrans" }
  | "bytes" =>
    { operations := comparisons ++ "__repr__ __hash__ __str__ __getattribute__ __iter__ " ++
        "__mod__ __rmod__ __len__ __getitem__ __add__ __mul__ __rmul__ __contains__"
      methods := textMethods ++ "__bytes__ decode hex"
      ofKind := "__new__ fromhex maketrans" }
  | "int" =>
    { operations := comparisons ++ arithmetic ++ bitwise ++
        "__repr__ __hash__ __getattribute__ __invert__ __lshift__ __rlshift__ __rshift__ " ++
        "__rrshift__ __index__"
      methods := "conjugate bit_length bit_count to_bytes as_integer_ratio __trunc__ " ++
        "__floor__ __ceil__ __round__ __getnewargs__ __format__ __sizeof__"
      attributes := "real imag numerator denominator"
      ofKind := "__new__ from_bytes" }
  | "bool" => { operations := bitwise ++ "__repr__", ofKind := "__new__" }
  | "float" =>
    { operations := comparisons ++ arithmetic ++ "__repr__ __hash__ __getattribute__"
      methods := "conjugate __trunc__ __floor__ __ceil__ __round__ as_integer_ratio hex " ++
        "is_integer __getnewargs__ __format__"
      attributes := "real imag"
      ofKind := "__new__ fromhex __getformat__" }
  | "list" =>
    { operations := comparisons ++ "__repr__ __getattribute__ __iter__ __init__ __len__ " ++
        "__setitem__ __delitem__ __add__ __mul__ __rmul__ __contains__ __iadd__ __imul__"
      methods := "__getitem__ __reversed__ __sizeof__ clear copy append insert extend pop " ++
        "remove index count reverse sort"
      ofKind := "__new__ __class_getitem__" }
  | "tuple" =>
    { operations := comparisons ++ "__repr__ __hash__ __getattribute__ __iter__ __len__ " ++
        "__getitem__ __add__ __mul__ __rmul__ __contains__"
      methods := "__getnewargs__ index count"
      ofKind := "__new__ __class_getitem__" }
  | "dict" =>
    { operations := comparisons ++ "__repr__ __getattribute__ __iter__ __init__ __or__ " ++
        "__ror__ __ior__ __len__ __setitem__ __delitem__"
      methods := "__contains__ __getitem__ __sizeof__ get setdefault pop popitem keys items " ++
        "values update clear copy __reversed__"
      ofKind := "__new__ fromkeys __class_getitem__" }
  | "set" =>
    { operations := comparisons ++ bitwise ++ "__repr__ __getattribute__ __iter__ __init__ " ++
        "__sub__ __rsub__ __isub__ __iand__ __ixor__ __ior__ __len__"
      methods := setMethods ++ "add clear discard difference_update intersection_update pop " ++
        "remove symmetric_difference_update update"
      ofKind := "__new__ __class_getitem__" }
  | "frozenset" =>
    { operations := comparisons ++ bitwise ++ "__repr__ __hash__ __getattribute__ __iter__ " ++
        "__sub__ __rsub__ __len__"
      methods := setMethods
      ofKind := "__new__ __class_getitem__" }
  | "NoneType" => { operations := "__repr__ __bool__", ofKind := "__new__" }
  | "date" =>
    { operations := comparisons ++ "__repr__ __hash__ __str__ __getattribute__ __add__ " ++
        "__radd__ __sub__ __rsub__"
      methods := "ctime strftime __format__ isoformat isocalendar isoweekday toordinal " ++
        "weekday timetuple replace __reduce__"
      attributes := "year month day"
      ofKind := "__new__ fromtimestamp fromordinal fromisoformat fromisocalendar today" }
  | "datetime" =>
    { operations := comparisons ++ "__repr__ __hash__ __str__ __getattribute__ __add__ " ++
        "__radd__ __sub__ __rsub__"
      methods := "date time timetz ctime timetuple timestamp utctimetuple isoformat " ++
        "utcoffset tzname dst replace astimezone __reduce_ex__ __reduce__"
      attributes := "hour minute second microsecond tzinfo fold"
      ofKind := "__new__ now utcnow fromtimestamp utcfromtimestamp strptime combine " ++
        "fromisoformat" }
  | "timezone" =>
    { operations := comparisons ++ "__repr__ __hash__ __str__"
      methods := "tzname utcoffset dst fromutc __getinitargs__"
      ofKind := "__new__" }
  | "tzinfo" =>
    { operations := "__getattribute__"
      methods := "tzname utcoffset dst fromutc __reduce__"
      ofKind := "__new__" }
  | "timedelta" =>
    { operations := comparisons ++ "__repr__ __hash__ __str__ __getattribute__ __add__ " ++
        "__radd__ __sub__ __rsub__ __mul__ __rmul__ __mod__ __rmod__ __divmod__ " ++
        "__rdivmod__ __neg__ __pos__ __abs__ __bool__ __floordiv__ __rfloordiv__ " ++
        "__truediv__ __rtruediv__"
      methods := "total_seconds __reduce__"
      parts := "days seconds microseconds"
      ofKind := "__new__" }
  | _ => {}

/-- What a kind says about itself, if it says anything. -/
def note? (kind : Kind) : Option String :=
  match kind.name with
  | "object" =>
    some ("The base class of the class hierarchy.\n\nWhen called, it accepts no arguments and " ++
      "returns a new featureless\ninstance that has no instance attributes and cannot be given " ++
      "any.\n")
  | "type" =>
    some ("type(object) -> the object's type\n" ++ "type(name, bases, dict, **kwds) -> a new type")
  | "str" =>
    some ("str(object='') -> str\nstr(bytes_or_buffer[, encoding[, errors]]) -> str\n\n" ++
      "Create a new string object from the given object. If encoding or\nerrors is specified, " ++
      "then the object must expose a data buffer\nthat will be decoded using the given encoding " ++
      "and error handler.\nOtherwise, returns the result of object.__str__() (if defined)\n" ++
      "or repr(object).\nencoding defaults to sys.getdefaultencoding().\n" ++
      "errors defaults to 'strict'.")
  | "bytes" =>
    some ("bytes(iterable_of_ints) -> bytes\nbytes(string, encoding[, errors]) -> bytes\n" ++
      "bytes(bytes_or_buffer) -> immutable copy of bytes_or_buffer\nbytes(int) -> bytes object " ++
      "of size given by the parameter initialized with null bytes\nbytes() -> empty bytes " ++
      "object\n\nConstruct an immutable array of bytes from:\n  - an iterable yielding " ++
      "integers in range(256)\n  - a text string encoded using the specified encoding\n  - any " ++
      "object implementing the buffer API.\n  - an integer")
  | "int" =>
    some ("int([x]) -> integer\nint(x, base=10) -> integer\n\nConvert a number or string to an " ++
      "integer, or return 0 if no arguments\nare given.  If x is a number, return " ++
      "x.__int__().  For floating point\nnumbers, this truncates towards zero.\n\nIf x is not " ++
      "a number or if base is given, then x must be a string,\nbytes, or bytearray instance " ++
      "representing an integer literal in the\ngiven base.  The literal can be preceded by " ++
      "'+' or '-' and be surrounded\nby whitespace.  The base defaults to 10.  Valid bases are " ++
      "0 and 2-36.\nBase 0 means to interpret the base from the string as an integer " ++
      "literal.\n>>> int('0b100', base=0)\n4")
  | "bool" =>
    some ("bool(x) -> bool\n\nReturns True when the argument x is true, False otherwise.\n" ++
      "The builtins True and False are the only two instances of the class bool.\n" ++
      "The class bool is a subclass of the class int, and cannot be subclassed.")
  | "float" => some "Convert a string or number to a floating point number, if possible."
  | "list" =>
    some ("Built-in mutable sequence.\n\nIf no argument is given, the constructor creates a new " ++
      "empty list.\nThe argument must be an iterable if specified.")
  | "tuple" =>
    some ("Built-in immutable sequence.\n\nIf no argument is given, the constructor returns an " ++
      "empty tuple.\nIf iterable is specified the tuple is initialized from iterable's " ++
      "items.\n\nIf the argument is a tuple, the return value is the same object.")
  | "dict" =>
    some ("dict() -> new empty dictionary\ndict(mapping) -> new dictionary initialized from a " ++
      "mapping object's\n    (key, value) pairs\ndict(iterable) -> new dictionary initialized " ++
      "as if via:\n    d = \x7b\x7d\n    for k, v in iterable:\n        d[k] = v\n" ++
      "dict(**kwargs) -> new dictionary initialized with the name=value pairs\n    in the " ++
      "keyword argument list.  For example:  dict(one=1, two=2)")
  | "set" =>
    some ("set() -> new empty set object\nset(iterable) -> new set object\n\n" ++
      "Build an unordered collection of unique elements.")
  | "frozenset" =>
    some ("frozenset() -> empty frozenset object\nfrozenset(iterable) -> frozenset object\n\n" ++
      "Build an immutable unordered collection of unique elements.")
  | "date" => some "date(year, month, day) --> date object"
  | "datetime" =>
    some ("datetime(year, month, day[, hour[, minute[, second[, microsecond[,tzinfo]]]]])\n\n" ++
      "The year, month and day arguments are required. tzinfo may be None, or an\ninstance of a " ++
      "tzinfo subclass. The remaining arguments may be ints.\n")
  | "timezone" => some "Fixed offset from UTC implementation of tzinfo."
  | "tzinfo" => some "Abstract base class for time zone info objects."
  | "timedelta" =>
    some ("Difference between two datetime values.\n\ntimedelta(days=0, seconds=0, " ++
      "microseconds=0, milliseconds=0, minutes=0, hours=0, weeks=0)\n\nAll arguments are " ++
      "optional and default to 0.\nArguments may be integers or floats, and may be positive or " ++
      "negative.")
  | _ => none

/-- Have the subjects of a kind no hash? -/
def isUnhashable (kind : Kind) : Bool := ["list", "dict", "set"].contains kind.name

/-- Can a kind be taken with an index, as a kind of collections of something? -/
def isIndexed (kind : Kind) : Bool :=
  ["type", "list", "dict", "tuple", "set", "frozenset"].contains kind.name

end Kind

/-- A member of a kind. -/
structure KindMember where
  form : MemberForm
  owner : Kind
  name : String

namespace KindMember

/-- The kind that members of a form have themselves. -/
def kind (m : KindMember) : Kind :=
  match m.form with
  | .operation => .builtin "wrapper_descriptor"
  | .method => .builtin "method_descriptor"
  | .attribute => .builtin "getset_descriptor"
  | .part => .builtin "member_descriptor"
  | .ofKind => .builtin "classmethod_descriptor"

/-- The text of a member. -/
def text (m : KindMember) : String :=
  let what := match m.form with
    | .operation => "slot wrapper"
    | .method | .ofKind => "method"
    | .attribute => "attribute"
    | .part => "member"
  s!"<{what} '{m.name}' of '{m.owner.title}' objects>"

/-- The name of a member behind that of its kind. -/
def fullName (m : KindMember) : String := m.owner.name ++ "." ++ m.name

end KindMember

/-- What a kind has under a name: a member of its own or of the nearest kind above it. -/
def Kind.member? (kind : Kind) (name : String) : Option KindMember :=
  kind.ancestry.findSome? fun owner =>
    (owner.ownMembers.form? name).map fun form => ⟨form, owner, name⟩

end TaintFlow.Template
