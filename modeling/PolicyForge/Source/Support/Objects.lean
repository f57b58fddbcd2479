/-!
# The base class of policies

The class that every generated policy extends, and the object that policies are applied to.
-/
namespace PolicyForge.Source.Support

def objectLines : List String := [
  "/// <summary>",
  "/// Base class of every generated policy.",
  "/// </summary>",
  "public abstract class PolicyBase : IPolicy",
  "\x7b",
  "    protected PolicyBase(PolicyClass policyClass, string key, string valueName, object " ++
      "enabledValue, object disabledValue)",
  "    \x7b",
  "        Class = policyClass;",
  "        Key = key;",
  "        ValueName = valueName;",
  "        EnabledValue = enabledValue;",
  "        DisabledValue = disabledValue;",
  "    \x7d",
  "",
  "    public PolicyClass Class \x7b get; \x7d",
  "",
  "    public string Key \x7b get; \x7d",
  "",
  "    public string ValueName \x7b get; \x7d",
  "",
  "    public object EnabledValue \x7b get; \x7d",
  "",
  "    public object DisabledValue \x7b get; \x7d",
  "",
  "    public abstract string DisplayName \x7b get; \x7d",
  "",
  "    public abstract string ResourceId \x7b get; \x7d",
  "",
  "    public abstract string SupportedOn \x7b get; \x7d",
  "",
  "    public abstract IReadOnlyList<IPolicyElement> Elements \x7b get; \x7d",
  "",
  "    public bool AppliesTo(PolicyScope scope)",
  "    \x7b",
  "        if (Class == PolicyClass.Both)",
  "            return true;",
  "        return scope == PolicyScope.User ? Class == PolicyClass.User : Class == PolicyClass.Machine;",
  "    \x7d",
  "",
  "    public override string ToString()",
  "    \x7b",
  "        return DisplayName;",
  "    \x7d",
  "\x7d",
  "",
  "/// <summary>",
  "/// The local machine group policy object.",
  "/// </summary>",
  "public sealed class GroupPolicyObject : IDisposable",
  "\x7b",
  "    private static readonly Guid RegistryExtension = new Guid(\"35378EAC-683F-11D2-A89A-00C04FBBCFA2\");",
  "    private static readonly Guid PolicySnapIn = new Guid(\"D02B1F72-3407-48AE-BA88-E8213C6761F1\");",
  "",
  "    private IGroupPolicyObject _instance;",
  "",
  "    private GroupPolicyObject(IGroupPolicyObject instance)",
  "    \x7b",
  "        _instance = instance;",
  "    \x7d",
  "",
  "    public static GroupPolicyObject OpenLocal()",
  "    \x7b",
  "        var instance = (IGroupPolicyObject)new GroupPolicyClass();",
  "        try",
  "        \x7b",
  "            instance.OpenLocalMachineGPO(NativeMethods.GPO_OPEN_LOAD_REGISTRY);",
  "        \x7d",
  "        catch",
  "        \x7b",
  "            Marshal.ReleaseComObject(instance);",
  "            throw;",
  "        \x7d",
  "        return new GroupPolicyObject(instance);",
  "    \x7d",
  "",
  "    internal IntPtr OpenRegistryRoot(PolicyScope scope)",
  "    \x7b",
  "        IntPtr key;",
  "        Instance.GetRegistryKey(SectionOf(scope), out key);",
  "        return key;",
  "    \x7d",
  "",
  "    public void Save(PolicyScope scope)",
  "    \x7b",
  "        Instance.Save(scope == PolicyScope.Machine, true, RegistryExtension, PolicySnapIn);",
  "    \x7d",
  "",
  "    public void Dispose()",
  "    \x7b",
  "        if (_instance != null)",
  "        \x7b",
  "            Marshal.ReleaseComObject(_instance);",
  "            _instance = null;",
  "        \x7d",
  "    \x7d",
  "",
  "    private IGroupPolicyObject Instance",
  "    \x7b",
  "        get",
  "        \x7b",
  "            if (_instance == null)",
  "                throw new ObjectDisposedException(nameof(GroupPolicyObject));",
  "            return _instance;",
  "        \x7d",
  "    \x7d",
  "",
  "    private static uint SectionOf(PolicyScope scope)",
  "    \x7b",
  "        return scope == PolicyScope.User ? NativeMethods.GPO_SECTION_USER : NativeMethods.GPO_SECTION_MACHINE;",
  "    \x7d",
  "\x7d"]

end PolicyForge.Source.Support
