/-!
# Writing to the registry

How values are converted for the registry and written to it.
-/
namespace PolicyForge.Source.Support

def registryLines : List String := [
  "/// <summary>",
  "/// String payload written as <c>REG_EXPAND_SZ</c>.",
  "/// </summary>",
  "public sealed class ExpandableText",
  "\x7b",
  "    public ExpandableText(string value)",
  "    \x7b",
  "        Value = value ?? string.Empty;",
  "    \x7d",
  "",
  "    public string Value \x7b get; \x7d",
  "",
  "    public override string ToString()",
  "    \x7b",
  "        return Value;",
  "    \x7d",
  "\x7d",
  "",
  "internal static class PolicyHelpers",
  "\x7b",
  "    internal static ulong ToUInt64(object value, string elementId)",
  "    \x7b",
  "        switch (value)",
  "        \x7b",
  "            case byte b:",
  "                return b;",
  "            case ushort us:",
  "                return us;",
  "            case uint ui:",
  "                return ui;",
  "            case ulong ul:",
  "                return ul;",
  "            case int i when i >= 0:",
  "                return (ulong)i;",
  "            case long l when l >= 0:",
  "                return (ulong)l;",
  "            case string s:",
  "                ulong parsed;",
  "                if (ulong.TryParse(s, NumberStyles.None, CultureInfo.InvariantCulture, out parsed))",
  "                    return parsed;",
  "                break;",
  "        \x7d",
  "        throw new ArgumentException(\"Element '\" + elementId + \"' expects a non-negative " ++
      "integer.\", nameof(value));",
  "    \x7d",
  "",
  "    internal static void CheckLength(string text, uint maxLength, string elementId)",
  "    \x7b",
  "        if (text != null && maxLength > 0 && (uint)text.Length > maxLength)",
  "            throw new ArgumentOutOfRangeException(nameof(text), \"Element '\" + elementId + " ++
      "\"' accepts at most \" + maxLength + \" characters.\");",
  "    \x7d",
  "",
  "    internal static bool SameKey(string left, string right)",
  "    \x7b",
  "        return string.Equals(left, right, StringComparison.OrdinalIgnoreCase);",
  "    \x7d",
  "",
  "    internal static byte[] Encode(object payload, out uint type)",
  "    \x7b",
  "        switch (payload)",
  "        \x7b",
  "            case uint dword:",
  "                type = NativeMethods.REG_DWORD;",
  "                return BitConverter.GetBytes(dword);",
  "            case ulong qword:",
  "                type = NativeMethods.REG_QWORD;",
  "                return BitConverter.GetBytes(qword);",
  "            case string text:",
  "                type = NativeMethods.REG_SZ;",
  "                return Encoding.Unicode.GetBytes(text + \"\\0\");",
  "            case ExpandableText expandable:",
  "                type = NativeMethods.REG_EXPAND_SZ;",
  "                return Encoding.Unicode.GetBytes(expandable.Value + \"\\0\");",
  "            case string[] lines:",
  "                type = NativeMethods.REG_MULTI_SZ;",
  "                return Encoding.Unicode.GetBytes(string.Join(\"\\0\", lines) + \"\\0\\0\");",
  "            default:",
  "                throw new ArgumentException(\"Unsupported registry payload '\" + payload + " ++
      "\"'.\", nameof(payload));",
  "        \x7d",
  "    \x7d",
  "",
  "    internal static void Check(int result, string operation)",
  "    \x7b",
  "        if (result != NativeMethods.ERROR_SUCCESS)",
  "            throw new Win32Exception(result, operation + \" failed.\");",
  "    \x7d",
  "\x7d",
  "",
  "internal sealed class PolicyRegistryWriter : IDisposable",
  "\x7b",
  "    private readonly IntPtr _root;",
  "    private readonly Dictionary<string, IntPtr> _keys = new Dictionary<string, " ++
      "IntPtr>(StringComparer.OrdinalIgnoreCase);",
  "",
  "    internal PolicyRegistryWriter(IntPtr root)",
  "    \x7b",
  "        _root = root;",
  "    \x7d",
  "",
  "    internal void Write(string key, string valueName, object payload)",
  "    \x7b",
  "        if (payload == null)",
  "        \x7b",
  "            Delete(key, valueName);",
  "            return;",
  "        \x7d",
  "        uint type;",
  "        var data = PolicyHelpers.Encode(payload, out type);",
  "        PolicyHelpers.Check(NativeMethods.RegSetValueEx(Open(key), valueName, 0, type, data, " ++
      "data.Length), \"RegSetValueEx\");",
  "    \x7d",
  "",
  "    internal void WriteEntries(string key, IDictionary<string, string> entries, bool expandable)",
  "    \x7b",
  "        foreach (var entry in entries)",
  "            Write(key, entry.Key, expandable ? (object)new ExpandableText(entry.Value) : entry.Value);",
  "    \x7d",
  "",
  "    internal void Delete(string key, string valueName)",
  "    \x7b",
  "        var result = NativeMethods.RegDeleteValue(Open(key), valueName);",
  "        if (result != NativeMethods.ERROR_FILE_NOT_FOUND)",
  "            PolicyHelpers.Check(result, \"RegDeleteValue\");",
  "    \x7d",
  "",
  "    internal void DeleteTree(string key)",
  "    \x7b",
  "        IntPtr handle;",
  "        if (_keys.TryGetValue(key, out handle))",
  "        \x7b",
  "            NativeMethods.RegCloseKey(handle);",
  "            _keys.Remove(key);",
  "        \x7d",
  "        var result = NativeMethods.RegDeleteTree(_root, key);",
  "        if (result != NativeMethods.ERROR_FILE_NOT_FOUND)",
  "            PolicyHelpers.Check(result, \"RegDeleteTree\");",
  "    \x7d",
  "",
  "    public void Dispose()",
  "    \x7b",
  "        foreach (var handle in _keys.Values)",
  "            NativeMethods.RegCloseKey(handle);",
  "        _keys.Clear();",
  "    \x7d",
  "",
  "    private IntPtr Open(string key)",
  "    \x7b",
  "        IntPtr handle;",
  "        if (_keys.TryGetValue(key, out handle))",
  "            return handle;",
  "        uint disposition;",
  "        PolicyHelpers.Check(",
  "            NativeMethods.RegCreateKeyEx(_root, key, 0, null, 0, NativeMethods.KEY_ALL_ACCESS, " ++
      "IntPtr.Zero, out handle, out disposition),",
  "            \"RegCreateKeyEx\");",
  "        _keys[key] = handle;",
  "        return handle;",
  "    \x7d",
  "\x7d"]

end PolicyForge.Source.Support
