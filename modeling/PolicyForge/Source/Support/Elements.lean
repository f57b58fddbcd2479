/-!
# The classes of elements

The generated code names one class per kind of element; these are those classes, with the values
that each of them accepts.
-/
namespace PolicyForge.Source.Support

def elementLines : List String := [
  "/// <summary>",
  "/// Registry hive(s) a policy applies to.",
  "/// </summary>",
  "public enum PolicyClass",
  "\x7b",
  "    User,",
  "    Machine,",
  "    Both,",
  "\x7d",
  "",
  "/// <summary>",
  "/// Hive targeted by a single policy write.",
  "/// </summary>",
  "public enum PolicyScope",
  "\x7b",
  "    User,",
  "    Machine,",
  "\x7d",
  "",
  "/// <summary>",
  "/// Configured state of a policy.",
  "/// </summary>",
  "public enum PolicyState",
  "\x7b",
  "    NotConfigured,",
  "    Enabled,",
  "    Disabled,",
  "\x7d",
  "",
  "/// <summary>",
  "/// Common metadata of a policy element.",
  "/// </summary>",
  "public abstract class PolicyElement : IPolicyElement",
  "\x7b",
  "    protected PolicyElement(string id, string key, string valueName)",
  "    \x7b",
  "        Id = id;",
  "        Key = key;",
  "        ValueName = valueName;",
  "    \x7d",
  "",
  "    public string Id \x7b get; \x7d",
  "",
  "    public string Key \x7b get; \x7d",
  "",
  "    public string ValueName \x7b get; \x7d",
  "",
  "    /// <summary>",
  "    /// Validates a caller supplied value and converts it to its registry payload.",
  "    /// A <c>null</c> payload removes the registry value.",
  "    /// </summary>",
  "    public abstract object Convert(object value);",
  "\x7d",
  "",
  "public sealed class BooleanElement : PolicyElement",
  "\x7b",
  "    public BooleanElement(string id, string key, string valueName, object trueValue, object falseValue)",
  "        : base(id, key, valueName)",
  "    \x7b",
  "        TrueValue = trueValue;",
  "        FalseValue = falseValue;",
  "    \x7d",
  "",
  "    public object TrueValue \x7b get; \x7d",
  "",
  "    public object FalseValue \x7b get; \x7d",
  "",
  "    public override object Convert(object value)",
  "    \x7b",
  "        if (!(value is bool flag))",
  "            throw new ArgumentException(\"Element '\" + Id + \"' expects a boolean value.\", nameof(value));",
  "        return flag ? TrueValue : FalseValue;",
  "    \x7d",
  "\x7d",
  "",
  "public sealed class DecimalElement : PolicyElement",
  "\x7b",
  "    public DecimalElement(string id, string key, string valueName, bool required, uint " ++
      "minValue, uint maxValue, bool storeAsText)",
  "        : base(id, key, valueName)",
  "    \x7b",
  "        Required = required;",
  "        MinValue = minValue;",
  "        MaxValue = maxValue;",
  "        StoreAsText = storeAsText;",
  "    \x7d",
  "",
  "    public bool Required \x7b get; \x7d",
  "",
  "    public uint MinValue \x7b get; \x7d",
  "",
  "    public uint MaxValue \x7b get; \x7d",
  "",
  "    public bool StoreAsText \x7b get; \x7d",
  "",
  "    public override object Convert(object value)",
  "    \x7b",
  "        var number = PolicyHelpers.ToUInt64(value, Id);",
  "        if (number < MinValue || number > MaxValue)",
  "            throw new ArgumentOutOfRangeException(nameof(value), \"Element '\" + Id + \"' " ++
      "expects a value between \" + MinValue + \" and \" + MaxValue + \".\");",
  "        if (StoreAsText)",
  "            return number.ToString(CultureInfo.InvariantCulture);",
  "        return (uint)number;",
  "    \x7d",
  "\x7d",
  "",
  "public sealed class LongDecimalElement : PolicyElement",
  "\x7b",
  "    public LongDecimalElement(string id, string key, string valueName, bool required, ulong " ++
      "minValue, ulong maxValue, bool storeAsText)",
  "        : base(id, key, valueName)",
  "    \x7b",
  "        Required = required;",
  "        MinValue = minValue;",
  "        MaxValue = maxValue;",
  "        StoreAsText = storeAsText;",
  "    \x7d",
  "",
  "    public bool Required \x7b get; \x7d",
  "",
  "    public ulong MinValue \x7b get; \x7d",
  "",
  "    public ulong MaxValue \x7b get; \x7d",
  "",
  "    public bool StoreAsText \x7b get; \x7d",
  "",
  "    public override object Convert(object value)",
  "    \x7b",
  "        var number = PolicyHelpers.ToUInt64(value, Id);",
  "        if (number < MinValue || number > MaxValue)",
  "            throw new ArgumentOutOfRangeException(nameof(value), \"Element '\" + Id + \"' " ++
      "expects a value between \" + MinValue + \" and \" + MaxValue + \".\");",
  "        if (StoreAsText)",
  "            return number.ToString(CultureInfo.InvariantCulture);",
  "        return number;",
  "    \x7d",
  "\x7d",
  "",
  "public sealed class EnumerationElement : PolicyElement",
  "\x7b",
  "    private readonly IReadOnlyDictionary<string, object> _options;",
  "",
  "    public EnumerationElement(string id, string key, string valueName, bool required, " ++
      "IReadOnlyDictionary<string, object> options)",
  "        : base(id, key, valueName)",
  "    \x7b",
  "        Required = required;",
  "        _options = options;",
  "    \x7d",
  "",
  "    public bool Required \x7b get; \x7d",
  "",
  "    public IEnumerable<string> Options => _options.Keys;",
  "",
  "    public override object Convert(object value)",
  "    \x7b",
  "        var option = value is Enum member ? member.ToString() : value as string;",
  "        object payload;",
  "        if (option == null || !_options.TryGetValue(option, out payload))",
  "            throw new ArgumentException(\"Element '\" + Id + \"' has no option named '\" + " ++
      "option + \"'.\", nameof(value));",
  "        return payload;",
  "    \x7d",
  "\x7d",
  "",
  "public sealed class ListElement : PolicyElement",
  "\x7b",
  "    public ListElement(string id, string key, string valuePrefix, bool additive, bool " ++
      "explicitValue, bool expandable)",
  "        : base(id, key, valuePrefix ?? string.Empty)",
  "    \x7b",
  "        Additive = additive;",
  "        ExplicitValue = explicitValue;",
  "        Expandable = expandable;",
  "    \x7d",
  "",
  "    public string ValuePrefix => ValueName;",
  "",
  "    public bool Additive \x7b get; \x7d",
  "",
  "    public bool ExplicitValue \x7b get; \x7d",
  "",
  "    public bool Expandable \x7b get; \x7d",
  "",
  "    public override object Convert(object value)",
  "    \x7b",
  "        var entries = new Dictionary<string, string>(StringComparer.OrdinalIgnoreCase);",
  "        if (ExplicitValue)",
  "        \x7b",
  "            if (!(value is IEnumerable<KeyValuePair<string, string>> pairs))",
  "                throw new ArgumentException(\"Element '\" + Id + \"' expects name/value pairs.\", nameof(value));",
  "            foreach (var pair in pairs)",
  "                entries[pair.Key] = pair.Value;",
  "            return entries;",
  "        \x7d",
  "",
  "        if (!(value is IEnumerable<string> items))",
  "            throw new ArgumentException(\"Element '\" + Id + \"' expects a sequence of strings.\", nameof(value));",
  "        var index = 1;",
  "        foreach (var item in items)",
  "        \x7b",
  "            var name = string.IsNullOrEmpty(ValuePrefix) ? item : ValuePrefix + " ++
      "index.ToString(CultureInfo.InvariantCulture);",
  "            entries[name] = item;",
  "            index++;",
  "        \x7d",
  "        return entries;",
  "    \x7d",
  "\x7d",
  "",
  "public sealed class MultiTextElement : PolicyElement",
  "\x7b",
  "    public MultiTextElement(string id, string key, string valueName, bool required, uint " ++
      "maxLength, uint maxStrings)",
  "        : base(id, key, valueName)",
  "    \x7b",
  "        Required = required;",
  "        MaxLength = maxLength;",
  "        MaxStrings = maxStrings;",
  "    \x7d",
  "",
  "    public bool Required \x7b get; \x7d",
  "",
  "    public uint MaxLength \x7b get; \x7d",
  "",
  "    public uint MaxStrings \x7b get; \x7d",
  "",
  "    public override object Convert(object value)",
  "    \x7b",
  "        if (!(value is IEnumerable<string> items))",
  "            throw new ArgumentException(\"Element '\" + Id + \"' expects a sequence of strings.\", nameof(value));",
  "        var lines = new List<string>();",
  "        foreach (var item in items)",
  "        \x7b",
  "            PolicyHelpers.CheckLength(item, MaxLength, Id);",
  "            lines.Add(item ?? string.Empty);",
  "        \x7d",
  "        if (MaxStrings > 0 && lines.Count > MaxStrings)",
  "            throw new ArgumentOutOfRangeException(nameof(value), \"Element '\" + Id + \"' " ++
      "accepts at most \" + MaxStrings + \" strings.\");",
  "        if (Required && lines.Count == 0)",
  "            throw new ArgumentException(\"Element '\" + Id + \"' is required.\", nameof(value));",
  "        return lines.ToArray();",
  "    \x7d",
  "\x7d",
  "",
  "public sealed class TextElement : PolicyElement",
  "\x7b",
  "    public TextElement(string id, string key, string valueName, bool required, uint maxLength, bool expandable)",
  "        : base(id, key, valueName)",
  "    \x7b",
  "        Required = required;",
  "        MaxLength = maxLength;",
  "        Expandable = expandable;",
  "    \x7d",
  "",
  "    public bool Required \x7b get; \x7d",
  "",
  "    public uint MaxLength \x7b get; \x7d",
  "",
  "    public bool Expandable \x7b get; \x7d",
  "",
  "    public override object Convert(object value)",
  "    \x7b",
  "        var text = value as string;",
  "        if (value != null && text == null)",
  "            throw new ArgumentException(\"Element '\" + Id + \"' expects a string value.\", nameof(value));",
  "        if (Required && string.IsNullOrEmpty(text))",
  "            throw new ArgumentException(\"Element '\" + Id + \"' is required.\", nameof(value));",
  "        PolicyHelpers.CheckLength(text, MaxLength, Id);",
  "        if (Expandable && text != null)",
  "            return new ExpandableText(text);",
  "        return text;",
  "    \x7d",
  "\x7d"]

end PolicyForge.Source.Support
